import Descent.Text.Utf8

/-!
# Positions in a text: `Position::locate`

A position lies between two characters. It is found by walking the text from its start and counting
lines, and bytes and characters within the line. The counts are natural numbers, which words of 32
bits can hold on texts of less than 2³² bytes.
-/

namespace Descent

/-- A place between two characters of a text. -/
structure Position where
  /-- Bytes from the start of the text. -/
  offset : Nat
  /-- Line feeds before the place. -/
  line : Nat
  /-- Bytes since the last line feed. -/
  col : Nat
  /-- Characters since the last line feed. -/
  charCol : Nat
  deriving DecidableEq, Repr

namespace Position

def start : Position := ⟨0, 0, 0, 0⟩

/-- The place after one more character. -/
def advance (p : Position) (c : Char) : Position :=
  if c = '\n' then ⟨p.offset + c.utf8Size, p.line + 1, 0, 0⟩
  else ⟨p.offset + c.utf8Size, p.line, p.col + c.utf8Size, p.charCol + 1⟩

/-- Walk from `p` until `offset` is reached or passed, or the text ends. -/
def seek (offset : Nat) : Position → List Char → Position
  | p, [] => p
  | p, c :: cs => if offset ≤ p.offset then p else seek offset (p.advance c) cs

/-- The position of a byte offset (`Position::locate`): the next place between two characters, or
the end of the text. -/
def locate (text : List Char) (offset : Nat) : Position := seek offset start text

/-- Line and character, both counted from zero. -/
def render (p : Position) : String := s!"{p.line}:{p.charCol}"

end Position
end Descent
