import Descent.Error

/-!
# Cursors

A cursor is the place a parse has reached in its input. A checkpoint is an earlier state of the
cursor; `restore` returns to it but keeps what the cursor has learned since, such as elements
fetched from a slow source. Reading may go on forever when the source never answers, which is what
`none` stands for in `read` and `exhausted`.
-/

namespace Descent

class Element (ε : Type) where
  shown : ε → String

instance : Element Char := ⟨Text.quoteChar⟩

instance : Element Int := ⟨toString⟩

/-- A place in an input of elements. -/
class Cursor (σ : Type) (ε : outParam Type) where
  /-- The next element, if there is one, and the cursor after it. -/
  read : σ → Option (Option ε × σ)
  /-- One element back; none at the start of the input. -/
  unread : σ → Option σ
  /-- From the cursor's present state back to an earlier one. -/
  restore : (now earlier : σ) → σ
  /-- How far into the input the cursor is: bytes of a text, elements otherwise. -/
  offset : σ → Nat
  /-- Whether every element has been read. -/
  exhausted : σ → Option (Bool × σ)
  /-- Called when the definition of a recursive parser is entered. -/
  visit : (cell : Nat) → σ → σ := fun _ c => c

end Descent
