import Descent.Parser.Repeat

/-!
# Operator chains: `chain_l1` / `chain_r1`

Operands with operators between them, folded from the left or from the right. An operator without
an operand after it is not consumed. As with the other loops, a step that consumes nothing counts
and ends the chain.
-/

namespace Descent.Parser

variable {σ ε α : Type}

/-- Fold steps of an operator and an operand onto `acc` from the left (`chain_l1`). -/
def chainFrom [Cursor σ ε] (step : Parser σ ((α → α → α) × α)) :
    (fuel : Nat) → (acc : α) → Parser σ α
  | 0, _ => fun _ => none
  | fuel + 1, acc => fun start =>
    match step start with
    | none => none
    | some ⟨.error _, c⟩ => some ⟨.ok acc, Cursor.restore c start⟩
    | some ⟨.ok (f, x), c⟩ =>
      if Cursor.offset c = Cursor.offset start then some ⟨.ok (f acc x), c⟩
      else chainFrom step fuel (f acc x) c

/-- `a + b + c` as `(a + b) + c` (`chain_l1`). -/
def chainLeft [Cursor σ ε] (fuel : Nat) (p : Parser σ α) (op : Parser σ (α → α → α)) :
    Parser σ α :=
  p.andThen fun first => chainFrom (op.pair p) fuel first

/-- Fold the operand `acc` into the steps before it, latest first. Its operator `f` waits until the
operand on its left is known, which belongs to the step before. -/
def unwindFrom (first : α) : (f : α → α → α) → (acc : α) → List ((α → α → α) × α) → α
  | f, acc, [] => f first acc
  | f, acc, (g, x) :: steps => unwindFrom first g (f x acc) steps

/-- Fold a first operand and the steps after it, latest first, from the right. -/
def unwind (first : α) : List ((α → α → α) × α) → α
  | [] => first
  | (f, x) :: steps => unwindFrom first f x steps

/-- `a + b + c` as `a + (b + c)` (`chain_r1`): all steps are read before any is folded. -/
def chainRight [Cursor σ ε] (fuel : Nat) (p : Parser σ α) (op : Parser σ (α → α → α)) :
    Parser σ α :=
  p.andThen fun first =>
    (manyFrom (op.pair p) fuel []).map fun steps => unwind first steps.reverse

end Descent.Parser
