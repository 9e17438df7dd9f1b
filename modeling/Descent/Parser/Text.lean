import Descent.Cursor.Text
import Descent.Parser.Basic
import Descent.Regex.Engine

/-!
# Parsers for text

These look at more than one character at once. None of them moves the cursor unless it succeeds.
-/

namespace Descent.Parser

variable {α : Type}

/-- The failure of a parser that wanted something else than what comes next. -/
def mismatch (c : TextCursor) (message : String) : ParseError :=
  match c.after with
  | [] => .endOfInput c.offset
  | x :: _ => .predicate c.offset (Text.quoteChar x) message

/-- Exactly this text. -/
def string (target : String) : Parser TextCursor String := fun c =>
  if target.toList.isPrefixOf c.after then
    some ⟨.ok target, c.advance target.toList.length⟩
  else some ⟨.error (mismatch c ("expected " ++ Text.quote target)), c⟩

/-- The characters up to the first that `p` rejects (`take_while`); if `nonempty`, there must be one
(`take_while1`). -/
def takeWhile (p : Char → Bool) (nonempty : Bool) : Parser TextCursor String := fun c =>
  let taken := c.after.takeWhile p
  if taken.isEmpty && nonempty then
    some ⟨.error (mismatch c "expected at least one matching char"), c⟩
  else some ⟨.ok (String.ofList taken), c.advance taken.length⟩

/-- The match of a pattern in what remains. The cursor moves to the end of the match. -/
def regex (source : String) (find : Regex.Finder) : Parser TextCursor String := fun c =>
  match find c.after with
  | some ⟨start, stop⟩ =>
    some ⟨.ok (String.ofList ((c.after.take stop).drop start)), c.advance stop⟩
  | none => some ⟨.error (mismatch c ("expected a match of /" ++ source ++ "/")), c⟩

/-- A view of the cursor, without moving it. -/
def inspect (f : TextCursor → α) : Parser TextCursor α := fun c => some ⟨.ok (f c), c⟩

end Descent.Parser
