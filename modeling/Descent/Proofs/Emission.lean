import Descent.Lexer.Pipeline

/-!
# What a machine emits

The states of a lexer on a machine alone, without a channel and without anybody who takes the
tokens: `Routine.step` is one step, `Emits` says which tokens some steps emit and where they lead
to. A run to the end is the longest one (`Emits.le_of_ends`), and the tokens of every other one are
a first part of its tokens (`Emits.prefix_of_le`).
-/

namespace Descent

variable {ι τ ω : Type}

namespace Ending

def routine : Ending → Routine ι τ ω
  | stopped => .stop
  | failed e => .fail e
  | panicked => .panic

/-- The error that the producer reports before it ends so. -/
def reported : Ending → Option LexError
  | failed e => some e
  | stopped | panicked => none

/-- The error that is known once the end of the producer has been seen. -/
def error : Ending → Option LexError
  | stopped => none
  | failed e => some e
  | panicked => some .panicked

theorem routine_injective : Function.Injective (routine : Ending → Routine ι τ ω) := by
  intro how how' h
  cases how <;> cases how' <;> simp_all [routine]

theorem error_eq_none {how : Ending} : how.error = none ↔ how = stopped := by
  cases how <;> simp [error]

theorem error_eq_some {how : Ending} {e : LexError} :
    how.error = some e ↔ how = failed e ∨ how = panicked ∧ e = .panicked := by
  cases how <;> simp [error, eq_comm]

end Ending

namespace Routine

/-- One step on a machine of its own: the token that it emits, if it emits one, the machine after
it and what is left to do. The last state has no step where it ends. -/
def step (states : ι → Routine ι τ ω) (m : Machine) :
    Routine ι τ ω → Option (Option (Token τ) × Machine × Routine ι τ ω)
  | read k => some (none, m.read.2, k m.read.1)
  | peek k => some (none, m.peek.2, k m.peek.1)
  | backup k => some (none, m.backup, k)
  | emit tag k => some (some (m.token tag), m.close, k)
  | dropSpan k => some (none, m.close, k)
  | view k => some (none, m, k m)
  | note _ k => some (none, m, k)
  | goto i => some (none, m, states i)
  | stop | fail _ | panic => none

theorem step_routine (states : ι → Routine ι τ ω) (m : Machine) (how : Ending) :
    how.routine.step states m = none := by
  cases how <;> rfl

end Routine

/-- The tokens that some steps from `r` on the machine `m` emit, first one first, and where the
steps lead to. -/
inductive Emits (states : ι → Routine ι τ ω) (m : Machine) (r : Routine ι τ ω) :
    (steps : Nat) → List (Token τ) → Machine → Routine ι τ ω → Prop
  | start : Emits states m r 0 [] m r
  | step {n ts m₁ r₁ t m₂ r₂} : Emits states m r n ts m₁ r₁ →
      r₁.step states m₁ = some (t, m₂, r₂) → Emits states m r (n + 1) (ts ++ t.toList) m₂ r₂

/-- On a text, the states from `first` on emit `ts` and come to their end after so many steps. -/
def Lexes (states : ι → Routine ι τ ω) (text : List Char) (first : ι) (steps : Nat)
    (ts : List (Token τ)) (how : Ending) : Prop :=
  ∃ m, Emits states (.ofText text) (states first) steps ts m how.routine

namespace Emits

variable {states : ι → Routine ι τ ω} {m m₁ m₂ : Machine} {r r₁ r₂ : Routine ι τ ω} {n k : Nat}
  {ts us : List (Token τ)} {how : Ending}

theorem unique (h : Emits states m r n ts m₁ r₁) :
    Emits states m r n us m₂ r₂ → ts = us ∧ m₁ = m₂ ∧ r₁ = r₂ := by
  induction h generalizing us m₂ r₂ with
  | start =>
    intro h'
    cases h'
    exact ⟨rfl, rfl, rfl⟩
  | step _ hs ih =>
    intro h'
    cases h' with
    | step h' hs' =>
      obtain ⟨rfl, rfl, rfl⟩ := ih h'
      cases hs.symm.trans hs'
      exact ⟨rfl, rfl, rfl⟩

/-- More steps emit more tokens. -/
theorem prefix_of_le (h : Emits states m r n ts m₁ r₁) (h' : Emits states m r k us m₂ r₂)
    (hnk : n ≤ k) : ts <+: us := by
  induction h' with
  | start =>
    obtain rfl : n = 0 := by omega
    obtain ⟨rfl, -, -⟩ := h.unique .start
    exact List.prefix_rfl
  | @step k _ _ _ t _ _ h' hs ih =>
    rcases Nat.lt_or_eq_of_le hnk with hlt | rfl
    · exact (ih (by omega)).trans (List.prefix_append _ _)
    · obtain ⟨rfl, -, -⟩ := h.unique (h'.step hs)
      exact List.prefix_rfl

/-- There are no steps after the end. -/
theorem le_of_ends (h : Emits states m r n ts m₁ r₁) (h' : Emits states m r k us m₂ how.routine) :
    n ≤ k := by
  induction h with
  | start => exact Nat.zero_le k
  | @step n _ _ _ _ _ _ h hs ih =>
    rcases Nat.lt_or_eq_of_le ih with hlt | rfl
    · exact hlt
    · obtain ⟨-, rfl, rfl⟩ := h.unique h'
      rw [Routine.step_routine] at hs
      cases hs

end Emits

/-- A lexer comes to one end. -/
theorem Lexes.unique {states : ι → Routine ι τ ω} {text : List Char} {first : ι} {n k : Nat}
    {ts us : List (Token τ)} {how how' : Ending} :
    Lexes states text first n ts how → Lexes states text first k us how' →
      n = k ∧ ts = us ∧ how = how'
  | ⟨_, h⟩, ⟨_, h'⟩ => by
    obtain rfl : n = k := Nat.le_antisymm (h.le_of_ends h') (h'.le_of_ends h)
    obtain ⟨rfl, -, hr⟩ := h.unique h'
    exact ⟨rfl, rfl, Ending.routine_injective hr⟩

end Descent
