import Descent.Cursor.Basic
import Descent.Position

/-!
# Text cursors

A cursor over a text (`TextCursor`) keeps the characters on both sides of its place, and counts
bytes and lines as it moves.
-/

namespace Descent

/-- A place in a text. -/
structure TextCursor where
  /-- The characters before the place, nearest first. -/
  before : List Char
  /-- The characters after the place. -/
  after : List Char
  /-- Bytes before the place. -/
  offset : Nat
  /-- The line of the place, counted from one. -/
  line : Nat
  deriving DecidableEq, Repr

namespace TextCursor

def ofText (text : List Char) : TextCursor := ⟨[], text, 0, 1⟩

def ofString (s : String) : TextCursor := ofText s.toList

def text (c : TextCursor) : List Char := c.before.reverse ++ c.after

def remaining (c : TextCursor) : String := String.ofList c.after

/-- The text between two offsets (`TextCursor::slice`), if both are boundaries and in order. -/
def slice? (c : TextCursor) (lo hi : Nat) : Option String :=
  (Text.slice? c.text lo hi).map String.ofList

/-- Line and column of the place (`TextCursor::position`), counted anew from the start of the text.
-/
def position (c : TextCursor) : Position := Position.locate c.text c.offset

def read (c : TextCursor) : Option Char × TextCursor :=
  match c.after with
  | [] => (none, c)
  | x :: rest =>
    (some x,
      ⟨x :: c.before, rest, c.offset + x.utf8Size, if x = '\n' then c.line + 1 else c.line⟩)

def unread (c : TextCursor) : Option TextCursor :=
  match c.before with
  | [] => none
  | x :: rest =>
    some ⟨rest, x :: c.after, c.offset - x.utf8Size, if x = '\n' then c.line - 1 else c.line⟩

/-- Past the next `n` characters at once. -/
def advance (c : TextCursor) (n : Nat) : TextCursor :=
  let passed := c.after.take n
  ⟨passed.reverse ++ c.before, c.after.drop n, c.offset + Text.width passed,
    c.line + Text.breaks passed⟩

@[simp] theorem text_read (c : TextCursor) : c.read.2.text = c.text := by
  unfold read
  split <;> simp_all [text]

theorem text_unread {c d : TextCursor} (h : c.unread = some d) : d.text = c.text := by
  unfold unread at h
  split at h
  · cases h
  · cases h
    simp_all [text]

@[simp] theorem text_advance (c : TextCursor) (n : Nat) : (c.advance n).text = c.text := by
  simp [advance, text, List.append_assoc, List.take_append_drop]

/-- Going back over a character undoes reading it. -/
theorem unread_read (c : TextCursor) (h : c.after ≠ []) : c.read.2.unread = some c := by
  obtain ⟨before, after, offset, line⟩ := c
  cases after with
  | nil => simp at h
  | cons x rest => by_cases hx : x = '\n' <;> simp [read, unread, hx]

instance : Cursor TextCursor Char where
  read c := some c.read
  unread := unread
  restore _ earlier := earlier
  offset := offset
  exhausted c := some (c.after.isEmpty, c)

end TextCursor
end Descent
