import Descent.Grammar.Combinators
import Descent.Grammar.Run
import Descent.Parser.Text
import Descent.Text.Blank

/-!
# Grammars over text

The characters of a text are its elements; on top of them a text grammar may match several
characters at once (`string`, `regex`, `take_while`), ask where it is (`position`, `remaining`,
`input`), and look at the text a run has consumed (`consumed`, `location`, `finish`).
-/

namespace Descent

/-- Parsers that only text has. -/
inductive TextPrim : Type → Type 1
  | string (target : String) : TextPrim String
  | takeWhile (p : Char → Bool) (nonempty : Bool) : TextPrim String
  | regex (source : String) (find : Regex.Finder) : TextPrim String
  /-- Where the cursor is. -/
  | position : TextPrim Position
  /-- What has not been read. -/
  | remaining : TextPrim String
  /-- The whole text. -/
  | input : TextPrim String

namespace TextPrim

def name : {α : Type} → TextPrim α → String
  | _, string target => Text.quote target
  | _, takeWhile _ _ => "take_while"
  | _, regex source _ => "/" ++ source ++ "/"
  | _, position => "position"
  | _, remaining => "remaining"
  | _, input => "input"

def run : {α : Type} → TextPrim α → Parser TextCursor α
  | _, string target => Parser.string target
  | _, takeWhile p nonempty => Parser.takeWhile p nonempty
  | _, regex source find => Parser.regex source find
  | _, position => Parser.inspect TextCursor.position
  | _, remaining => Parser.inspect TextCursor.remaining
  | _, input => Parser.inspect fun c => String.ofList c.text

end TextPrim

/-- What can be made of a run over text. -/
inductive TextScope : Type → Type → Type 1
  /-- The text that was consumed. -/
  | consumed {α : Type} : TextScope α String
  /-- The value together with the offsets of both ends. -/
  | location {α β : Type} (f : (start stop : Nat) → α → β) : TextScope α β
  /-- The value, if nothing remains. -/
  | finish {α : Type} : TextScope α α

/-- The verdict on a run from `start` to `stop`. -/
def TextScope.judge : {α β : Type} → TextScope α β → (start : TextCursor) → α →
    (stop : TextCursor) → Except ParseError β
  | _, _, consumed, start, _, stop => .ok ((stop.slice? start.offset stop.offset).getD "")
  | _, _, location f, start, v, stop => .ok (f start.offset stop.offset v)
  | _, _, finish, _, v, stop =>
    if stop.after.isEmpty then .ok v else .error (.unparsed stop.offset stop.remaining)

/-- What grammars over text have beyond reading characters. -/
def Signature.text : Signature where
  Prim := TextPrim
  primName := TextPrim.name
  Scope := TextScope

instance : Interprets .text TextCursor where
  prim p := TextPrim.run p
  scope s := TextScope.judge s

abbrev TextGrammar := Grammar Char .text

namespace TextGrammar

variable {Γ : List Type} {α β : Type}

/-! ## Single characters -/

def char (x : Char) : TextGrammar Γ Char :=
  .item ("'" ++ x.toString ++ "'") fun c =>
    if c = x then .ok () else .error ("expected " ++ Text.quoteChar x)

/-- Any character but `x`. -/
def notChar (x : Char) : TextGrammar Γ Char :=
  .item ("not '" ++ x.toString ++ "'") fun c =>
    if c = x then .error ("unexpected " ++ Text.quoteChar x) else .ok ()

def charRange (lo hi : Char) : TextGrammar Γ Char :=
  .item ("'" ++ lo.toString ++ "'..='" ++ hi.toString ++ "'") fun c =>
    if lo ≤ c ∧ c ≤ hi then .ok ()
    else .error
      ("expected a char between " ++ Text.quoteChar lo ++ " and " ++ Text.quoteChar hi)

def oneOf (chars : String) : TextGrammar Γ Char :=
  let label := "one of " ++ Text.quote chars
  .item label fun c => if c ∈ chars.toList then .ok () else .error ("expected " ++ label)

def satisfyChar (p : Char → Bool) : TextGrammar Γ Char :=
  .item "satisfy" fun c => if p c then .ok () else .error "char does not match predicate"

/-- A character for which `p` holds, without its value. -/
def skipChar (p : Char → Bool) : TextGrammar Γ Unit := .constant (satisfyChar p) ()

/-! ## Several characters -/

def string (target : String) : TextGrammar Γ String := .prim (.string target)

/-- A match of a pattern. -/
def regex (source : String) (find : Regex.Finder) : TextGrammar Γ String :=
  .prim (.regex source find)

/-- A match of a pattern at the cursor (`regex`), if the engine accepts it. -/
def regex? (E : Regex.Engine) (source : String) : Option (TextGrammar Γ String) :=
  (E.anchored? source).map (regex source)

/-- The characters for which `p` holds, as far as they go. -/
def takeWhile (p : Char → Bool) : TextGrammar Γ String := .prim (.takeWhile p false)

def takeWhile1 (p : Char → Bool) : TextGrammar Γ String := .prim (.takeWhile p true)

/-- The characters before the first for which `p` holds. -/
def takeTill (p : Char → Bool) : TextGrammar Γ String := takeWhile fun c => !p c

def takeTill1 (p : Char → Bool) : TextGrammar Γ String := takeWhile1 fun c => !p c

/-- Past the characters for which `p` holds. -/
def skipWhile (p : Char → Bool) : TextGrammar Γ Unit := .constant (takeWhile p) ()

/-! ## White space -/

def space : TextGrammar Γ Char := .named "whitespace" (satisfyChar Text.isBlank)

/-- `p` with any white space around it. -/
def skipWs (p : TextGrammar Γ α) : TextGrammar Γ α := .wrap (.skipMany space) p (.skipMany space)

/-- `p` with some white space after it. -/
def trailingWs (p : TextGrammar Γ α) : TextGrammar Γ α := .left p (.skipMany1 space)

/-- `p` with some white space before it. -/
def precedingWs (p : TextGrammar Γ α) : TextGrammar Γ α := .right (.skipMany1 space) p

/-- `p` with any white space after it. -/
def lexeme (p : TextGrammar Γ α) : TextGrammar Γ α := .left p (.skipMany space)

/-! ## Runs and their ends -/

/-- The text that `p` consumes. -/
def consumed (p : TextGrammar Γ α) : TextGrammar Γ String := .scope .consumed p

/-- The next `n` characters. -/
def take (n : Nat) : TextGrammar Γ String := consumed (.count 4 n .any)

/-- The value of `p` together with the offsets of both ends of its run. -/
def location (f : (start stop : Nat) → α → β) (p : TextGrammar Γ α) : TextGrammar Γ β :=
  .scope (.location f) p

/-- `p` on the whole text; a failure holds what remains of it. -/
def finish (p : TextGrammar Γ α) : TextGrammar Γ α := .scope .finish p

/-! ## The state of the cursor -/

def position : TextGrammar Γ Position := .prim .position

def remaining : TextGrammar Γ String := .prim .remaining

def input : TextGrammar Γ String := .prim .input

end TextGrammar
end Descent
