import Descent.Error
import Descent.Position
import Descent.Text.Style

/-!
# Reports: `ParseError::report` / `ErrorReport`

A report shows a failure beside the line of the text where it arose, with a caret under the place.
Lines end at a line feed, and a carriage return right before it belongs to the end of the line.
-/

namespace Descent

namespace Text

/-- The text up to the first line feed, and what follows that line feed if there is one. -/
def splitLine : List Char → List Char × Option (List Char)
  | [] => ([], none)
  | c :: cs =>
    if c = '\n' then ([], some cs)
    else
      let (line, rest) := splitLine cs
      (c :: line, rest)

def dropReturn (cs : List Char) : List Char :=
  if cs.getLast? = some '\r' then cs.dropLast else cs

/-- Line `n` of the text, counted from zero, without its end; none past the last line. No line
follows a final line feed. -/
def line? : Nat → List Char → Option (List Char)
  | 0, cs =>
    match splitLine cs with
    | ([], none) => none
    | (line, none) => some line
    | (line, some _) => some (dropReturn line)
  | n + 1, cs => (splitLine cs).2.bind (line? n)

end Text

/-- A failure placed in the text it arose from. -/
structure Report where
  message : String
  /-- What stands beside the caret. -/
  remark : String
  file : String
  /-- The line that holds the place. -/
  line : String
  place : Position
  deriving DecidableEq, Repr

namespace ParseError

/-- What a report says beside the caret. -/
def remark : ParseError → String
  | expected label _ _ => "expected " ++ label
  | named label _ => "in " ++ label
  | endOfInput _ => "end of input"
  | unparsed _ _ => "unexpected"
  | _ => "here"

/-- The report of the failure in a text (`ParseError::report`). A failure without a place, or with
one past the end, is shown at the end. -/
def report (e : ParseError) (file : String) (text : List Char) : Report :=
  let place := Position.locate text (min (e.offset?.getD (Text.width text)) (Text.width text))
  { message := e.message
    remark := e.remark
    file := file
    line := String.ofList ((Text.line? place.line text).getD [])
    place := place }

end ParseError

namespace Report

open Text

/-- The lines of the report (`ErrorReport`): the message, the place, and the line of the text in a
frame with a caret below it. The frame's margin is as wide as the line number. -/
def lines (coloured : Bool) (r : Report) : List String :=
  let number := toString (r.place.line + 1)
  let margin := blanks (number.length + 1)
  let bar := styled coloured .frame "|"
  [ styled coloured .alarm "parse error" ++ styled coloured .strong ":" ++ " " ++
      styled coloured .strong r.message,
    blanks number.length ++ styled coloured .frame "-->" ++
      s!" {r.file}:{r.place.line + 1}:{r.place.charCol + 1}",
    margin ++ bar,
    styled coloured .frame number ++ " " ++ bar ++ r.line,
    margin ++ bar ++ blanks r.place.charCol ++ styled coloured .alarm "^" ++ " " ++
      styled coloured .alarm r.remark,
    margin ++ bar ]

def render (coloured : Bool) (r : Report) : String :=
  "\n".intercalate (r.lines coloured)

/-- What comes out when the report is shown: its text, or nothing where the caret would stand too
far to the right. -/
def shown? (coloured : Bool) (r : Report) : Option String :=
  if r.place.charCol ≤ widestPadding then some (r.render coloured) else none

end Report
end Descent
