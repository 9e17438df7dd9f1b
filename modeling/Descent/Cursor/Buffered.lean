import Descent.Cursor.Basic

/-!
# Buffered cursors: `IterCursor`

A cursor over a source that hands out its elements one at a time. Elements are fetched when they
are first needed and kept, so that going back to a checkpoint replays them.
-/

namespace Descent

/-- A source of elements. `none` inside the answer means that the source had nothing to give this
time; no answer at all means that it never comes back. -/
class Source (s : Type) (ε : outParam Type) where
  next : s → Option (Option ε × s)

/-- A cursor over a source (`IterCursor`). -/
structure Buffered (s ε : Type) where
  source : s
  /-- The elements fetched so far. -/
  buffer : Array ε
  /-- How many of them lie before the cursor. -/
  pos : Nat

namespace Buffered

variable {s ε : Type}

def ofSource (source : s) : Buffered s ε := ⟨source, #[], 0⟩

/-- Fetch elements until the buffer reaches past the cursor (`IterCursor::fill`); false if the
source ran out first. `missing` bounds the number of elements still to fetch. -/
def fetch [Source s ε] : (missing : Nat) → Buffered s ε → Option (Bool × Buffered s ε)
  | 0, c => some (true, c)
  | missing + 1, c =>
    match Source.next c.source with
    | none => none
    | some (none, source) => some (false, { c with source := source })
    | some (some x, source) =>
      fetch missing { c with source := source, buffer := c.buffer.push x }

/-- Fetch what is missing between the buffer's end and the element at the cursor. -/
def fill [Source s ε] (c : Buffered s ε) : Option (Bool × Buffered s ε) :=
  fetch (c.pos + 1 - c.buffer.size) c

/-- The element at the cursor, fetched if need be. -/
def read [Source s ε] (c : Buffered s ε) : Option (Option ε × Buffered s ε) :=
  match c.fill with
  | none => none
  | some (_, c) =>
    match c.buffer[c.pos]? with
    | none => some (none, c)
    | some x => some (some x, { c with pos := c.pos + 1 })

def unread (c : Buffered s ε) : Option (Buffered s ε) :=
  if c.pos = 0 then none else some { c with pos := c.pos - 1 }

instance [Source s ε] : Cursor (Buffered s ε) ε where
  read := read
  unread := unread
  restore now earlier := { now with pos := earlier.pos }
  offset := pos
  exhausted c := c.fill.map fun (filled, c) => (!filled, c)

/-- The cursor as messages show it. -/
def shown [Element ε] (c : Buffered s ε) : String :=
  let elements := ", ".intercalate (c.buffer.toList.map Element.shown)
  "IterCursor \x7b buffer: [" ++ elements ++ s!"], pos: {c.pos} " ++ "\x7d"

end Buffered

/-- A source with a fixed script: each entry answers one call, and an entry of `none` is a call
that gives nothing although later ones may. It counts the calls. -/
structure Script (ε : Type) where
  answers : List (Option ε)
  calls : Nat

namespace Script

variable {ε : Type}

def ofList (answers : List (Option ε)) : Script ε := ⟨answers, 0⟩

instance : Source (Script ε) ε where
  next s :=
    match s.answers with
    | [] => some (none, { s with calls := s.calls + 1 })
    | a :: rest => some (a, ⟨rest, s.calls + 1⟩)

end Script
end Descent
