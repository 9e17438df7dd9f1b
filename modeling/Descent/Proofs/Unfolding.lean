import Descent.Cursor.Text
import Descent.Grammar.Combinators
import Descent.Proofs.Course
import Descent.Proofs.Substitution

/-!
# Unfolding: `fix`

A definition means the same as its body with the definition itself in the place of its references:
main theorem `Grammar.fix_unfolds`. So does every grammar in which definitions have been unfolded,
anywhere and any number of times (`Grammar.Unfolds`). Unfolding costs fuel, and the proof goes by
how much: what a run does with some fuel, a run of the other grammar does with a fixed amount more
(`Grammar.Follows`), whatever is bound and wherever the run begins.
-/

namespace Descent.Grammar

variable {σ ε α β γ : Type} {S : Signature} {Γ : List Type}

/-- `q` for the last reference, and the others as they are. -/
def single (q : Grammar ε S Γ α) : Substitution ε S (α :: Γ) Γ
  | _, .here => q
  | _, .there v => .ref v

/-- The grammar with `q` in the place of its last reference. -/
def instantiate (g : Grammar ε S (α :: Γ) β) (q : Grammar ε S Γ α) : Grammar ε S Γ β :=
  g.subst (single q)

/-- What a definition of its own refers to is none of the references that are replaced. -/
example : (.or (.ref .here) (.fix 1 (.or (.ref .here) (.ref (.there .here)))) :
    Grammar Char .plain [Nat] Nat).instantiate (.ret 5) =
      .or (.ret 5) (.fix 1 (.or (.ref .here) (.ret 5))) := rfl

/-- Definitions of the grammar have been unfolded. -/
inductive Unfolds {ε : Type} {S : Signature} : {Γ : List Type} → {α : Type} → Grammar ε S Γ α →
    Grammar ε S Γ α → Prop
  | refl {Γ : List Type} {α : Type} {g : Grammar ε S Γ α} : Unfolds g g
  | trans {Γ : List Type} {α : Type} {g g' g'' : Grammar ε S Γ α} :
    Unfolds g g' → Unfolds g' g'' → Unfolds g g''
  | unfold {Γ : List Type} {α : Type} (cell : Nat) (p : Grammar ε S (α :: Γ) α) :
    Unfolds (.fix cell p) (p.instantiate (.fix cell p))
  /-- Anywhere under combinators, and under binders that are not referred to there. -/
  | inside {Γ : List Type} {α β : Type} (g : Grammar ε S (α :: Γ) β) {q q' : Grammar ε S Γ α} :
    Unfolds q q' → Unfolds (g.instantiate q) (g.instantiate q')
  /-- Under a binder that may be referred to. -/
  | under {Γ : List Type} {α : Type} (cell : Nat) {p p' : Grammar ε S (α :: Γ) α} :
    Unfolds p p' → Unfolds (.fix cell p) (.fix cell p')

/-- The definition, unfolded `k` times. -/
def unfolded (cell : Nat) (p : Grammar ε S (α :: Γ) α) : (k : Nat) → Grammar ε S Γ α
  | 0 => .fix cell p
  | k + 1 => p.instantiate (unfolded cell p k)

theorem unfolds_unfolded (cell : Nat) (p : Grammar ε S (α :: Γ) α) :
    ∀ k, Unfolds (.fix cell p) (p.unfolded cell k)
  | 0 => .refl
  | k + 1 => .trans (.unfold cell p) (.inside p (unfolds_unfolded cell p k))

section

variable [Cursor σ ε] [Element ε] [Interprets S σ] {ρ : Env σ Γ} {c : σ}

/-- With fuel enough the grammar ends with `r`. Without free references this is `Returns`. -/
def Ends (g : Grammar ε S Γ α) (ρ : Env σ Γ) (c : σ) (r : Reply σ α) : Prop :=
  ∃ n, run n g ρ c = some r

theorem run_instantiate {n : Nat} (g : Grammar ε S (α :: Γ) β) (q : Grammar ε S Γ α)
    (ρ : Env σ Γ) : run n (g.instantiate q) ρ = run n g (Env.cons (run n q ρ) ρ) := by
  rw [instantiate, run_subst]
  refine run_congr g fun v => ?_
  cases v <;> rfl

/-- One round of a definition. -/
theorem run_fix_succ {n : Nat} (cell : Nat) (p : Grammar ε S (α :: Γ) α) {r : Reply σ α} :
    run n p (Env.cons (run n (.fix cell p) ρ) ρ) (Cursor.visit cell c) = some r →
      run (n + 1) (.fix cell p) ρ c = some r := by
  intro h
  -- this is the definition with the fuel `n` for its body, entered once more
  have hr : Parser.fixpoint (fun self c => run n p (Env.cons self ρ) (Cursor.visit cell c))
    (n + 1) c = some r := h
  exact fixpoint_le (Nat.le_succ n) (Nat.le_refl (n + 1)) cell p (fun _ _ _ h => h) hr

theorem of_run_fix {n : Nat} (cell : Nat) (p : Grammar ε S (α :: Γ) α) {r : Reply σ α}
    (h : run n (.fix cell p) ρ c = some r) :
    run n p (Env.cons (run n (.fix cell p) ρ) ρ) (Cursor.visit cell c) = some r := by
  cases n with
  | zero => cases h
  | succ n =>
    have hr : run (n + 1) p (Env.cons (Parser.fixpoint (fun self c => run (n + 1) p
      (Env.cons self ρ) (Cursor.visit cell c)) n) ρ) (Cursor.visit cell c) = some r := h
    refine run_le (Nat.le_refl _) p (fun v d r' hv => ?_) hr
    cases v with
    | here => exact fixpoint_le (Nat.le_refl _) (Nat.le_succ n) cell p (fun _ _ _ h => h) hv
    | there v => exact hv

/-- What `g` does with some fuel, `g'` does with `k` more. -/
def Follows (σ : Type) [Cursor σ ε] [Interprets S σ] (k : Nat) (g g' : Grammar ε S Γ α) : Prop :=
  ∀ (n : Nat) (ρ : Env σ Γ) c r, run n g ρ c = some r → run (n + k) g' ρ c = some r

namespace Follows

variable {j k : Nat} {g g' g'' : Grammar ε S Γ α}

theorem trans (h : Follows σ j g g') (h' : Follows σ k g' g'') : Follows σ (j + k) g g'' := by
  intro n ρ c r hr
  rw [← Nat.add_assoc]
  exact h' _ _ _ _ (h _ _ _ _ hr)

theorem mono (hjk : j ≤ k) (h : Follows σ j g g') : Follows σ k g g' := by
  intro n ρ c r hr
  exact run_le (Nat.add_le_add_left hjk n) g' (fun _ _ _ h => h) (h n ρ c r hr)

theorem inside (p : Grammar ε S (α :: Γ) β) (h : Follows σ k g g') :
    Follows σ k (p.instantiate g) (p.instantiate g') := by
  intro n ρ c r hr
  rw [run_instantiate] at hr ⊢
  refine run_le (Nat.le_add_right n k) p (fun v d r' hv => ?_) hr
  cases v with
  | here => exact h n ρ d r' hv
  | there v => exact hv

theorem under (cell : Nat) {p p' : Grammar ε S (α :: Γ) α} (h : Follows σ k p p') :
    Follows σ k (.fix cell p : Grammar ε S Γ α) (.fix cell p') := by
  intro n ρ c r hr
  refine (Course.agree_iff.1 (Lockstep.Agree.fixpoint (L := Course.anywhere.lockstep)
    (fun {q q'} hq => Course.agree_iff.2 fun c r hr => ⟨?_, trivial⟩) (Nat.le_add_right n k))
    c r hr).1
  refine run_le (Nat.le_refl _) p' (fun v d r' hv => ?_) (h n _ _ r hr)
  cases v with
  | here => exact (Course.agree_iff.1 hq d r' hv).1
  | there v => exact hv

end Follows

theorem Unfolds.follows (hv : ∀ cell (c : σ), Cursor.visit cell c = c) {g g' : Grammar ε S Γ α}
    (h : Unfolds g g') : ∃ k, Follows σ k g g' ∧ Follows σ k g' g := by
  induction h with
  | refl => exact ⟨0, fun _ _ _ _ h => h, fun _ _ _ _ h => h⟩
  | trans _ _ ih ih' =>
    obtain ⟨j, hr, hl⟩ := ih
    obtain ⟨k, hr', hl'⟩ := ih'
    exact ⟨j + k, hr.trans hr', (hl'.trans hl).mono (Nat.le_of_eq (Nat.add_comm k j))⟩
  | unfold cell p =>
    refine ⟨1, fun n ρ c r hr => ?_, fun n ρ c r hr => ?_⟩
    · have hr := of_run_fix cell p hr
      rw [hv, ← run_instantiate] at hr
      exact run_le (Nat.le_succ n) _ (fun _ _ _ h => h) hr
    · rw [run_instantiate] at hr
      exact run_fix_succ cell p (by rwa [hv])
  | inside g _ ih =>
    obtain ⟨k, hr, hl⟩ := ih
    exact ⟨k, hr.inside g, hl.inside g⟩
  | under cell _ ih =>
    obtain ⟨k, hr, hl⟩ := ih
    exact ⟨k, hr.under cell, hl.under cell⟩

/-- A definition comes to the same as its body with itself in the place of its references. On a
cursor that keeps no record of the definitions that are entered, such as one on a text or one in
front of a source, so does everything that comes out of unfolding definitions. -/
theorem fix_unfolds (cell : Nat) (p : Grammar ε S (α :: Γ) α) (ρ : Env σ Γ) :
    (∀ c r, Ends (.fix cell p) ρ c r ↔
      Ends (p.instantiate (.fix cell p)) ρ (Cursor.visit cell c) r) ∧
    ((∀ cell (c : σ), Cursor.visit cell c = c) → ∀ {β : Type} {g g' : Grammar ε S Γ β},
      Unfolds g g' → ∀ c r, Ends g ρ c r ↔ Ends g' ρ c r) := by
  refine ⟨fun c r => ⟨?_, ?_⟩, fun hv β g g' h c r => ?_⟩
  · rintro ⟨n, hr⟩
    exact ⟨n, (congrFun (run_instantiate p _ ρ) _).trans (of_run_fix cell p hr)⟩
  · rintro ⟨n, hr⟩
    rw [run_instantiate] at hr
    exact ⟨n + 1, run_fix_succ cell p hr⟩
  · obtain ⟨k, hr, hl⟩ := h.follows hv
    constructor
    · rintro ⟨n, h⟩
      exact ⟨n + k, hr n ρ c r h⟩
    · rintro ⟨n, h⟩
      exact ⟨n + k, hl n ρ c r h⟩

end

/-- Round brackets around nothing or more brackets, which are square, defined in terms of
themselves, or round again. -/
def round : Grammar Char .plain [Unit] Unit :=
  let square : Grammar Char .plain [Unit, Unit] (Option Unit) :=
    .wrap (.satisfy (· == '[')) (.opt (.ref .here)) (.satisfy (· == ']'))
  let inner : Grammar Char .plain [Unit] (Option Unit) :=
    .opt (.fix 1 (.or (.constant square ()) (.ref (.there .here))))
  .constant (.wrap (.satisfy (· == '(')) inner (.satisfy (· == ')'))) ()

/-- Unfolded twice, also where square brackets refer to round ones. -/
theorem round_unfolded :
    (∀ cell (c : TextCursor), Cursor.visit cell c = c) ∧
    Unfolds (.fix 0 round) (round.unfolded 0 2) ∧
    ∃ r, Ends (round.unfolded 0 2) Env.nil (TextCursor.ofText ['(', '[', '(', ')', ']', ')']) r ∧
      r.result.toBool = true ∧ r.cursor.offset = 6 := by
  have hv : ∀ cell (c : TextCursor), Cursor.visit cell c = c := fun _ _ => rfl
  have hu := unfolds_unfolded 0 round 2
  have hrun : (run 3 (.fix 0 round) Env.nil (TextCursor.ofText ['(', '[', '(', ')', ']', ')'])).map
      (fun r => (r.result.toBool, r.cursor.offset)) = some (true, 6) := by decide +kernel
  obtain ⟨r, hr, he⟩ := Option.map_eq_some_iff.1 hrun
  obtain ⟨hok, hoffset⟩ := Prod.mk.inj he
  exact ⟨hv, hu, r, ((fix_unfolds 0 round Env.nil).2 hv hu _ _).1 ⟨3, hr⟩, hok, hoffset⟩

end Descent.Grammar
