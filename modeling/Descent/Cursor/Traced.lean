import Descent.Cursor.Basic

/-!
# Traced cursors

A cursor that also records which recursive definitions have been entered. The cell of a definition
(`FixCell`) is filled when it is first entered, and never again, so the record holds each of them
once.
-/

namespace Descent

/-- A cursor with the definitions built so far, latest first. -/
structure Traced (σ : Type) where
  inner : σ
  built : List Nat

namespace Traced

variable {σ ε : Type}

/-- Note that a definition is needed (`FixCell::get`). -/
def build (cell : Nat) (built : List Nat) : List Nat :=
  if cell ∈ built then built else cell :: built

instance [Cursor σ ε] : Cursor (Traced σ) ε where
  read c := (Cursor.read c.inner).map fun (x, i) => (x, { c with inner := i })
  unread c := (Cursor.unread c.inner).map fun i => { c with inner := i }
  restore now earlier := { now with inner := Cursor.restore now.inner earlier.inner }
  offset c := Cursor.offset c.inner
  exhausted c := (Cursor.exhausted c.inner).map fun (x, i) => (x, { c with inner := i })
  visit cell c := ⟨Cursor.visit cell c.inner, build cell c.built⟩

end Traced
end Descent
