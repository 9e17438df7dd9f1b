import Descent.Proofs.Lockstep
import Mathlib.Order.Filter.AtTopBot.Basic
import Mathlib.Order.Filter.Finite

/-!
# Parsers in the limit

Two ways to run a grammar may use up their fuel at different rates, and how much more the one needs
than the other may depend on where the run begins. `Tends` compares a parser with a family of them
instead: however the parser ends, so do almost all of the family. Every combinator keeps this, the
loops if their fuel grows without bound.
-/

namespace Descent.Parser

open Filter

variable {ι σ ε α β : Type} {lim : Filter ι}

/-- However `p` ends, almost all of the family do. -/
def Tends (lim : Filter ι) (p : Parser σ α) (P : ι → Parser σ α) : Prop :=
  ∀ c r, p c = some r → ∀ᶠ i in lim, P i c = some r

namespace Tends

variable {p : Parser σ α} {P : ι → Parser σ α} {q : Parser σ β} {Q : ι → Parser σ β}

theorem const (p : Parser σ α) : Tends lim p fun _ => p :=
  fun _ _ h => .of_forall fun _ => h

/-- A combinator that goes by a single run, which it begins where it begins itself. -/
theorem once {f : Parser σ α → Parser σ β} (hnone : ∀ {p c}, p c = none → f p c = none)
    (hcongr : ∀ {p q c}, p c = q c → f p c = f q c) (hp : Tends lim p P) :
    Tends lim (f p) fun i => f (P i) := by
  intro c r hr
  cases hc : p c with
  | none => cases (hnone hc).symm.trans hr
  | some a =>
    filter_upwards [hp c a hc] with i hi
    rw [hcongr (hi.trans hc.symm), hr]

theorem andThen {f : α → Parser σ β} {F : ι → α → Parser σ β} (hp : Tends lim p P)
    (hf : ∀ v, Tends lim (f v) fun i => F i v) :
    Tends lim (p.andThen f) fun i => (P i).andThen (F i) := by
  intro c r hr
  unfold Parser.andThen at hr ⊢
  match hc : p c with
  | none => simp [hc] at hr
  | some ⟨.error e, d⟩ =>
    filter_upwards [hp c _ hc] with i hi
    simpa only [hc, hi] using hr
  | some ⟨.ok v, d⟩ =>
    rw [hc] at hr
    filter_upwards [hp c _ hc, hf v d r hr] with i hi hv
    rwa [hi]

theorem map (f : α → β) (hp : Tends lim p P) : Tends lim (p.map f) fun i => (P i).map f :=
  hp.andThen fun _ => const _

theorem right (hp : Tends lim p P) (hq : Tends lim q Q) :
    Tends lim (p.right q) fun i => (P i).right (Q i) := hp.andThen fun _ => hq

theorem left (hp : Tends lim p P) (hq : Tends lim q Q) :
    Tends lim (p.left q) fun i => (P i).left (Q i) := hp.andThen fun _ => hq.map _

theorem pair (hp : Tends lim p P) (hq : Tends lim q Q) :
    Tends lim (p.pair q) fun i => (P i).pair (Q i) := hp.andThen fun _ => hq.map _

theorem all : ∀ {n : Nat} {τ : Fin n → Type} {ps : ∀ i, Parser σ (τ i)}
    {Ps : ι → ∀ i, Parser σ (τ i)}, (∀ k, Tends lim (ps k) fun i => Ps i k) →
    Tends lim (Parser.all ps) fun i => Parser.all (Ps i)
  | 0, _, _, _, _ => const _
  | _ + 1, _, _, _, h => (h 0).andThen fun _ => (all fun k => h k.succ).map _

theorem mapError (f : ParseError → ParseError) (hp : Tends lim p P) :
    Tends lim (p.mapError f) fun i => (P i).mapError f :=
  hp.once (fun h => by simp [Parser.mapError, h]) fun h => by simp [Parser.mapError, h]

theorem judge (f : σ → α → σ → Except ParseError β) (hp : Tends lim p P) :
    Tends lim (p.judge f) fun i => (P i).judge f :=
  hp.once (fun h => by simp [Parser.judge, h]) fun h => by simp [Parser.judge, h]

theorem countFrom (hp : Tends lim p P) : ∀ (n : Nat) (values : List α),
    Tends lim (p.countFrom n values) fun i => (P i).countFrom n values
  | 0, _ => const _
  | n + 1, values => hp.andThen fun v => countFrom hp n (v :: values)

theorem count (size n : Nat) (hp : Tends lim p P) :
    Tends lim (p.count size n) fun i => (P i).count size n := by
  unfold Parser.count
  split
  · exact countFrom hp n []
  · exact const _

variable [Cursor σ ε]

theorem tryMap (f : α → Except String β) (hp : Tends lim p P) :
    Tends lim (p.tryMap f) fun i => (P i).tryMap f :=
  hp.once (fun h => by simp [Parser.tryMap, Parser.andThen, h]) fun h => by
    simp [Parser.tryMap, Parser.andThen, h]

theorem check (ok : α → Bool) (message : α → String) (hp : Tends lim p P) :
    Tends lim (p.check ok message) fun i => (P i).check ok message :=
  hp.once (fun h => by simp [Parser.check, Parser.andThen, h]) fun h => by
    simp [Parser.check, Parser.andThen, h]

theorem finish [Element ε] (hp : Tends lim p P) : Tends lim p.finish fun i => (P i).finish :=
  hp.left (const _)

theorem attempt (hp : Tends lim p P) : Tends lim p.attempt fun i => (P i).attempt :=
  hp.once (fun h => by simp [Parser.attempt, h]) fun h => by simp [Parser.attempt, h]

theorem lookAhead (hp : Tends lim p P) : Tends lim p.lookAhead fun i => (P i).lookAhead :=
  hp.once (fun h => by simp [Parser.lookAhead, h]) fun h => by simp [Parser.lookAhead, h]

theorem opt (hp : Tends lim p P) : Tends lim p.opt fun i => (P i).opt :=
  hp.once (fun h => by simp [Parser.opt, h]) fun h => by simp [Parser.opt, h]

/-! ## Choice -/

variable {p' : Parser σ α} {P' : ι → Parser σ α}

theorem or (hp : Tends lim p P) (hp' : Tends lim p' P') :
    Tends lim (p.or p') fun i => (P i).or (P' i) := by
  intro c r hr
  unfold Parser.or at hr ⊢
  match hc : p c with
  | none => simp [hc] at hr
  | some ⟨.ok v, d⟩ =>
    filter_upwards [hp c _ hc] with i hi
    simpa only [hc, hi] using hr
  | some ⟨.error e, d⟩ =>
    simp only [hc] at hr
    split at hr
    · next hd =>
      cases hc' : p' d with
      | none => simp [hc'] at hr
      | some r' =>
        filter_upwards [hp c _ hc, hp' d _ hc'] with i hi hi'
        simpa only [hi, if_pos hd, hi', ← hc'] using hr
    · next hd =>
      filter_upwards [hp c _ hc] with i hi
      simpa only [hi, if_neg hd] using hr

theorem choiceFrom (label : String) (start : Nat) {ps : List (Parser σ α)}
    {Ps : List (ι → Parser σ α)} (h : List.Forall₂ (Tends lim) ps Ps) : ∀ causes,
    Tends lim (Parser.choiceFrom label start ps causes)
      fun i => Parser.choiceFrom label start (Ps.map (· i)) causes := by
  induction h with
  | nil => exact fun _ => const _
  | @cons p P ps Ps hp _ ih =>
    intro causes c r hr
    simp only [Parser.choiceFrom, List.map_cons] at hr ⊢
    cases hc : p c with
    | none => simp [hc] at hr
    | some reply =>
      obtain ⟨e | v, d⟩ := reply
      · simp only [hc] at hr
        split at hr
        · next hd =>
          filter_upwards [hp c _ hc, ih (e :: causes) d r hr] with i hi hi'
          simpa only [hi, if_pos hd] using hi'
        · next hd =>
          filter_upwards [hp c _ hc] with i hi
          simpa only [hi, if_neg hd] using hr
      · filter_upwards [hp c _ hc] with i hi
        simpa only [hc, hi] using hr

theorem tryChoiceList (label : String) {ps : List (Parser σ α)} {Ps : List (ι → Parser σ α)}
    (h : List.Forall₂ (Tends lim) ps Ps) :
    Tends lim (Parser.tryChoice label ps) fun i => Parser.tryChoice label (Ps.map (· i)) := by
  induction h with
  | nil => exact const _
  | @cons p P ps Ps hp hps ih =>
    cases hps with
    | nil => exact hp
    | cons hp₁ hps =>
      intro c r hr
      simp only [Parser.tryChoice, List.map_cons] at hr ⊢
      cases hc : p c with
      | none => simp [hc] at hr
      | some reply =>
        obtain ⟨e | v, d⟩ := reply
        · simp only [hc] at hr
          filter_upwards [hp c _ hc, ih _ r hr] with i hi hi'
          simpa only [hi, List.map_cons] using hi'
        · filter_upwards [hp c _ hc] with i hi
          simpa only [hc, hi] using hr

variable {n : Nat} {ps : Fin n → Parser σ α} {Ps : ι → Fin n → Parser σ α}

private theorem map_ofFn (i : ι) : (List.ofFn fun k i => Ps i k).map (· i) = List.ofFn (Ps i) := by
  rw [List.map_ofFn]
  rfl

theorem choice (label : String) (h : ∀ k, Tends lim (ps k) fun i => Ps i k) :
    Tends lim (Parser.choice label (List.ofFn ps))
      fun i => Parser.choice label (List.ofFn (Ps i)) := by
  intro c r hr
  filter_upwards [choiceFrom label (Cursor.offset c) (Grammar.forall₂_ofFn h) [] c r hr] with i hi
  rwa [map_ofFn] at hi

theorem tryChoice (label : String) (h : ∀ k, Tends lim (ps k) fun i => Ps i k) :
    Tends lim (Parser.tryChoice label (List.ofFn ps))
      fun i => Parser.tryChoice label (List.ofFn (Ps i)) := by
  intro c r hr
  filter_upwards [tryChoiceList label (Grammar.forall₂_ofFn h) c r hr] with i hi
  rwa [map_ofFn] at hi

/-! ## Loops

By induction on the fuel of the single parser: a family whose fuel grows has enough of it in the
end. -/

private theorem eventually_manyFrom (hp : Tends lim p P) : ∀ (n : Nat) (values : List α) c r,
    p.manyFrom n values c = some r → ∀ᶠ i in lim, ∀ k ≥ n, (P i).manyFrom k values c = some r
  | n + 1, values, c, r, hr => by
    rw [manyFrom_succ] at hr
    match hc : p c with
    | none => simp [hc] at hr
    | some ⟨.error e, d⟩ =>
      filter_upwards [hp c _ hc] with i hi
      exact fun | k + 1, _ => by simpa only [manyFrom_succ, hc, hi] using hr
    | some ⟨.ok v, d⟩ =>
      simp only [hc] at hr
      split at hr
      · next hd =>
        filter_upwards [hp c _ hc] with i hi
        exact fun | k + 1, _ => by simpa only [manyFrom_succ, hi, if_pos hd] using hr
      · next hd =>
        filter_upwards [hp c _ hc, eventually_manyFrom hp n (v :: values) d r hr] with i hi hi'
        intro
        | k + 1, hk =>
          simpa only [manyFrom_succ, hi, if_neg hd] using hi' k (Nat.le_of_succ_le_succ hk)

private theorem eventually_tillFrom (hp : Tends lim p P) (hq : Tends lim q Q) :
    ∀ (n : Nat) (values : List α) c r, p.tillFrom q n values c = some r →
      ∀ᶠ i in lim, ∀ k ≥ n, (P i).tillFrom (Q i) k values c = some r
  | n + 1, values, c, r, hr => by
    rw [tillFrom_succ] at hr
    match hc : q c with
    | none => simp [hc] at hr
    | some ⟨.ok v, d⟩ =>
      filter_upwards [hq c _ hc] with i hi
      exact fun | k + 1, _ => by simpa only [tillFrom_succ, hc, hi] using hr
    | some ⟨.error e, d⟩ =>
      simp only [hc] at hr
      match hc' : p (Cursor.restore d c) with
      | none => simp [hc'] at hr
      | some ⟨.error f, d'⟩ =>
        filter_upwards [hq c _ hc, hp _ _ hc'] with i hi hi'
        exact fun | k + 1, _ => by simpa only [tillFrom_succ, hi, hc', hi'] using hr
      | some ⟨.ok v, d'⟩ =>
        simp only [hc'] at hr
        split at hr
        · next hd =>
          filter_upwards [hq c _ hc, hp _ _ hc'] with i hi hi'
          exact fun | k + 1, _ => by simpa only [tillFrom_succ, hi, hi', if_pos hd] using hr
        · next hd =>
          filter_upwards [hq c _ hc, hp _ _ hc',
            eventually_tillFrom hp hq n (v :: values) d' r hr] with i hi hi' ih
          intro
          | k + 1, hk =>
            simpa only [tillFrom_succ, hi, hi', if_neg hd] using ih k (Nat.le_of_succ_le_succ hk)

variable {fuel : ι → Nat} (hfuel : Tendsto fuel lim atTop)

include hfuel

theorem manyFrom (hp : Tends lim p P) (n : Nat) (values : List α) :
    Tends lim (p.manyFrom n values) fun i => (P i).manyFrom (fuel i) values := by
  intro c r hr
  filter_upwards [eventually_manyFrom hp n values c r hr, hfuel.eventually_ge_atTop n] with i hi hn
  exact hi _ hn

theorem tillFrom (hp : Tends lim p P) (hq : Tends lim q Q) (n : Nat) (values : List α) :
    Tends lim (p.tillFrom q n values) fun i => (P i).tillFrom (Q i) (fuel i) values := by
  intro c r hr
  filter_upwards [eventually_tillFrom hp hq n values c r hr, hfuel.eventually_ge_atTop n]
    with i hi hn
  exact hi _ hn

theorem skipMany (hp : Tends lim p P) (n : Nat) :
    Tends lim (p.skipMany n) fun i => (P i).skipMany (fuel i) := by
  simp only [skipMany_eq_many]
  exact (manyFrom hfuel hp n []).map _

theorem sepFrom (hq : Tends lim q Q) (hp : Tends lim p P) (n : Nat) (values : List α) :
    Tends lim (Parser.sepFrom q p n values)
      fun i => Parser.sepFrom (Q i) (P i) (fuel i) values := by
  simp only [sepFrom_eq_manyFrom]
  exact manyFrom hfuel (hq.right hp) n values

theorem sepBy (hq : Tends lim q Q) (hp : Tends lim p P) (n : Nat) :
    Tends lim (Parser.sepBy n q p) fun i => Parser.sepBy (fuel i) (Q i) (P i) := by
  intro c r hr
  unfold Parser.sepBy at hr ⊢
  match hc : p c with
  | none => simp [hc] at hr
  | some ⟨.error e, d⟩ =>
    filter_upwards [hp c _ hc] with i hi
    simpa only [hc, hi] using hr
  | some ⟨.ok v, d⟩ =>
    simp only [hc] at hr
    filter_upwards [hp c _ hc, sepFrom hfuel hq hp n [v] d r hr] with i hi hi'
    simpa only [hi] using hi'

theorem chainLeft {op : Parser σ (α → α → α)} {Op : ι → Parser σ (α → α → α)}
    (hp : Tends lim p P) (ho : Tends lim op Op) (n : Nat) :
    Tends lim (p.chainLeft n op) fun i => (P i).chainLeft (fuel i) (Op i) := by
  simp only [chainLeft_eq_many]
  exact hp.andThen fun _ => (manyFrom hfuel (ho.pair hp) n []).map _

end Tends
end Descent.Parser
