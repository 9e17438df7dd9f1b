import Descent.Grammar.Combinators
import Descent.Proofs.Course

/-!
# Repetition

What a loop comes to, in terms of the runs of its body and without fuel: `Loop step c vs d` says
that from `c` it reads the values `vs` and ends at `d`. It has two ends, `loop_iff`: a step that
fails, which is undone, and one that succeeds without consuming, whose value counts.

Main statements: `Grammar.many_returns_iff`, a grammar repeated returns exactly what its runs as a
loop come to, and `Grammar.loops_compose`, the loops with bodies of their own are put together from
this one.
-/

namespace Descent

section

variable {σ ε β : Type} [Cursor σ ε]

/-- Successes, each begun where the one before it ended, and each consuming something. -/
inductive Passes (step : σ → Reply σ β → Prop) : σ → List β → σ → Prop
  | none {c} : Passes step c [] c
  | pass {c d e v vs} : step c ⟨.ok v, d⟩ → Cursor.offset d ≠ Cursor.offset c →
    Passes step d vs e → Passes step c (v :: vs) e

/-- Successes until a step fails, which is undone, or consumes nothing. -/
inductive Loop (step : σ → Reply σ β → Prop) : σ → List β → σ → Prop
  | failed {c x e} : step c ⟨.error e, x⟩ → Loop step c [] (Cursor.restore x c)
  | idle {c d v} : step c ⟨.ok v, d⟩ → Cursor.offset d = Cursor.offset c → Loop step c [v] d
  | round {c d e v vs} : step c ⟨.ok v, d⟩ → Cursor.offset d ≠ Cursor.offset c →
    Loop step d vs e → Loop step c (v :: vs) e

variable {step : σ → Reply σ β → Prop} {b c d d' : σ} {us vs vs' : List β}

theorem Passes.loop (h : Passes step c us b) (hl : Loop step b vs d) :
    Loop step c (us ++ vs) d := by
  induction h with
  | none => exact hl
  | pass hv hne _ ih => exact .round hv hne (ih hl)

/-- The two ends of a loop. -/
theorem loop_iff : Loop step c vs d ↔
    (∃ b e x, Passes step c vs b ∧ step b ⟨.error e, x⟩ ∧ Cursor.restore x b = d) ∨
    ∃ us v b, Passes step c us b ∧ step b ⟨.ok v, d⟩ ∧ Cursor.offset d = Cursor.offset b ∧
      us ++ [v] = vs := by
  constructor
  · intro h
    induction h with
    | failed he => exact .inl ⟨_, _, _, .none, he, rfl⟩
    | idle hv ho => exact .inr ⟨[], _, _, .none, hv, ho, rfl⟩
    | round hv hne _ ih =>
      obtain ⟨b, e, x, hp, he, hd⟩ | ⟨us, w, b, hp, hw, ho, rfl⟩ := ih
      · exact .inl ⟨b, e, x, .pass hv hne hp, he, hd⟩
      · exact .inr ⟨_ :: us, w, b, .pass hv hne hp, hw, ho, rfl⟩
  · rintro (⟨b, e, x, hp, he, rfl⟩ | ⟨us, v, b, hp, hv, ho, rfl⟩)
    · have h := hp.loop (.failed he)
      rwa [List.append_nil] at h
    · exact hp.loop (.idle hv ho)

/-- No step has two outcomes. -/
def Deterministic (step : σ → Reply σ β → Prop) : Prop := ∀ c r r', step c r → step c r' → r = r'

theorem Loop.unique (hs : Deterministic step) (h : Loop step c vs d)
    (h' : Loop step c vs' d') : vs = vs' ∧ d = d' := by
  induction h generalizing vs' with
  | failed he =>
    cases h' with
    | failed he' =>
      cases hs _ _ _ he he'
      exact ⟨rfl, rfl⟩
    | idle hv' => cases hs _ _ _ he hv'
    | round hv' => cases hs _ _ _ he hv'
  | idle hv ho =>
    cases h' with
    | failed he' => cases hs _ _ _ hv he'
    | idle hv' =>
      cases hs _ _ _ hv hv'
      exact ⟨rfl, rfl⟩
    | round hv' hne' =>
      cases hs _ _ _ hv hv'
      exact absurd ho hne'
  | round hv hne _ ih =>
    cases h' with
    | failed he' => cases hs _ _ _ hv he'
    | idle hv' ho' =>
      cases hs _ _ _ hv hv'
      exact absurd ho' hne
    | round hv' _ h' =>
      cases hs _ _ _ hv hv'
      obtain ⟨rfl, rfl⟩ := ih h'
      exact ⟨rfl, rfl⟩

/-! ## Fuel -/

/-- What the parser comes to with fuel enough. -/
def Comes (P : Nat → Parser σ β) (c : σ) (r : Reply σ β) : Prop := ∃ n, P n c = some r

/-- More fuel does not change a run that has ended. -/
structure Fueled (P : Nat → Parser σ β) : Prop where
  le {n m : Nat} {c : σ} {r : Reply σ β} : n ≤ m → P n c = some r → P m c = some r

variable {α : Type} {P : Nat → Parser σ β} {Q : Nat → Parser σ α} {r r' : Reply σ β}

theorem Fueled.deterministic (hP : Fueled P) : Deterministic (Comes P) := by
  rintro c r r' ⟨n, h⟩ ⟨m, h'⟩
  have h₁ := hP.le (Nat.le_max_left n m) h
  have h₂ := hP.le (Nat.le_max_right n m) h'
  exact Option.some.inj (h₁.symm.trans h₂)

theorem Fueled.map {γ : Type} (f : β → γ) (hP : Fueled P) : Fueled fun n => (P n).map f where
  le hnm h := by
    obtain ⟨r', hr, rfl⟩ := Parser.map_eq_some_iff.1 h
    exact Parser.map_eq_some_iff.2 ⟨r', hP.le hnm hr, rfl⟩

theorem Fueled.andThen {F : β → Nat → Parser σ α} (hP : Fueled P) (hF : ∀ v, Fueled (F v)) :
    Fueled fun n => (P n).andThen fun v => F v n where
  le hnm h := by
    obtain ⟨e, d, hp, hr⟩ | ⟨v, d, hp, hr⟩ := Parser.andThen_eq_some_iff.1 h
    · exact Parser.andThen_eq_some_iff.2 (.inl ⟨e, d, hP.le hnm hp, hr⟩)
    · exact Parser.andThen_eq_some_iff.2 (.inr ⟨v, d, hP.le hnm hp, (hF v).le hnm hr⟩)

theorem Fueled.pair (hP : Fueled P) (hQ : Fueled Q) : Fueled fun n => (P n).pair (Q n) :=
  hP.andThen fun _ => hQ.map _

/-- A loop comes to its values on top of those read so far, if there is fuel for its rounds: by
induction on them. -/
theorem Loop.manyFrom (hP : Fueled P) (h : Loop (Comes P) c vs d) :
    ∃ m, ∀ n, m ≤ n → ∀ fuel, m ≤ fuel → ∀ values,
      (P n).manyFrom fuel values c = some ⟨.ok (values.reverse ++ vs), d⟩ := by
  induction h with
  | failed he =>
    obtain ⟨m, hm⟩ := he
    refine ⟨m + 1, fun n hn fuel hf values => ?_⟩
    obtain ⟨fuel, rfl⟩ := Nat.exists_eq_add_of_le' (Nat.le_trans (Nat.le_add_left 1 m) hf)
    rw [Parser.manyFrom_succ, hP.le (Nat.le_of_succ_le hn) hm, List.append_nil]
  | idle hv ho =>
    obtain ⟨m, hm⟩ := hv
    refine ⟨m + 1, fun n hn fuel hf values => ?_⟩
    obtain ⟨fuel, rfl⟩ := Nat.exists_eq_add_of_le' (Nat.le_trans (Nat.le_add_left 1 m) hf)
    rw [Parser.manyFrom_succ, hP.le (Nat.le_of_succ_le hn) hm]
    dsimp only
    rw [if_pos ho, List.reverse_cons]
  | round hv hne _ ih =>
    obtain ⟨m, hm⟩ := hv
    obtain ⟨m', hm'⟩ := ih
    refine ⟨max m m' + 1, fun n hn fuel hf values => ?_⟩
    obtain ⟨fuel, rfl⟩ := Nat.exists_eq_add_of_le' (Nat.le_trans (Nat.le_add_left 1 _) hf)
    rw [Parser.manyFrom_succ, hP.le (by omega) hm]
    dsimp only
    rw [if_neg hne, hm' n (by omega) fuel (by omega), List.reverse_cons, List.append_assoc]
    rfl

/-- There is nothing else for it to come to: by induction on its fuel. -/
theorem loop_of_manyFrom {n : Nat} : ∀ {fuel : Nat} {values : List β} {c : σ}
    {r : Reply σ (List β)}, (P n).manyFrom fuel values c = some r →
    ∃ vs d, Loop (Comes P) c vs d ∧ ⟨.ok (values.reverse ++ vs), d⟩ = r
  | fuel + 1, values, c, r, h => by
    rw [Parser.manyFrom_succ] at h
    match hp : P n c with
    | none => simp [hp] at h
    | some ⟨.error e, x⟩ =>
      rw [hp] at h
      cases h
      exact ⟨[], _, .failed ⟨n, hp⟩, by rw [List.append_nil]⟩
    | some ⟨.ok v, d⟩ =>
      simp only [hp] at h
      by_cases ho : Cursor.offset d = Cursor.offset c
      · rw [if_pos ho] at h
        cases h
        exact ⟨[v], d, .idle ⟨n, hp⟩ ho, by rw [List.reverse_cons]⟩
      · rw [if_neg ho] at h
        obtain ⟨vs, e, hl, rfl⟩ := loop_of_manyFrom h
        exact ⟨v :: vs, e, .round ⟨n, hp⟩ ho hl, by simp⟩

theorem manyFrom_iff (hP : Fueled P) {r : Reply σ (List β)} :
    (∃ n, (P n).manyFrom n [] c = some r) ↔
      ∃ vs d, Loop (Comes P) c vs d ∧ ⟨.ok vs, d⟩ = r := by
  constructor
  · rintro ⟨n, h⟩
    exact loop_of_manyFrom h
  · rintro ⟨vs, d, h, rfl⟩
    obtain ⟨m, hm⟩ := h.manyFrom hP
    exact ⟨m, hm m (Nat.le_refl m) m (Nat.le_refl m) []⟩

end

namespace Grammar

variable {σ ε α β : Type} {S : Signature} {Γ : List Type} [Cursor σ ε] [Element ε]
  [Interprets S σ]

theorem fueled (g : Grammar ε S [] α) : Fueled fun n => (g.parser n : Parser σ α) :=
  ⟨fun hnm h => parser_le hnm h⟩

/-- A repeated grammar returns what its runs come to as a loop, and it returns nothing else. -/
theorem many_returns_iff {p : Grammar ε S [] α} {c : σ} {r : Reply σ (List α)} :
    (many p).Returns c r ↔ ∃ vs d, Loop p.Returns c vs d ∧ ⟨.ok vs, d⟩ = r :=
  manyFrom_iff p.fueled

/-- Every loop is put together from `many`: values with separators between are a value and then any
number of separators with a value after each, and so on. Both sides are one and the same parser:
equal values, failures and final cursors, with all fuel and whatever is bound. -/
theorem loops_compose (n : Nat) (sep : Grammar ε S Γ β) (p : Grammar ε S Γ α) (ρ : Env σ Γ) :
    run n (sepBy1 sep p) ρ = run n (bind p fun v => map (v :: ·) (many (right sep p))) ρ ∧
      run n (sepBy sep p) ρ = run n (orValue [] (sepBy1 sep p)) ρ ∧
      run n (many1 p) ρ = run n (bind p fun v => map (v :: ·) (many p)) ρ ∧
      run n (skipMany p) ρ = run n (constant (many p) ()) ρ ∧
      run n (skipMany1 p) ρ = run n (constant (many1 p) ()) ρ :=
  ⟨Parser.sepBy1_eq n _ _, Parser.sepBy_eq n _ _, Parser.many1_eq n _,
    Parser.skipMany_eq_many n _, Parser.skipMany1_eq_many1 n _⟩

end Grammar
end Descent
