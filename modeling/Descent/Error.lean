import Descent.Text.Quoted

/-!
# Why a parse fails: `ParseError`

A failure is a tree: a choice keeps the failures of its alternatives, a named parser keeps the
failure inside it. `ParseError.message` is its text, `ParseError.offset?` the place where it arose.
-/

namespace Descent

/-- An error that ends the production of tokens. -/
inductive LexError
  /-- Reported by a state of the lexer. -/
  | message (text : String)
  /-- A state of the lexer crashed. -/
  | panicked
  /-- The lexer could not be started. -/
  | spawn (reason : String)
  deriving DecidableEq, Repr

def LexError.text : LexError → String
  | message text => text
  | panicked => "lexer state function panicked"
  | spawn reason => "could not start lexer thread: " ++ reason

/-- Why there is neither a result nor a failure. -/
inductive Crash
  /-- A reference was used after the last parser that holds its definition was gone. -/
  | danglingReference
  /-- More memory was asked for at once than there can be. -/
  | capacityOverflow
  /-- A text was to be indented by more than a padding can have. -/
  | widePadding
  deriving DecidableEq, Repr

def Crash.text : Crash → String
  | danglingReference => "fix: self-reference used after its parser was dropped"
  | capacityOverflow => "capacity overflow"
  | widePadding => "Formatting argument out of range"

/-- Why a parse failed. Offsets count bytes of a text, or elements of any other input. -/
inductive ParseError
  /-- Nothing was left to read. -/
  | endOfInput (offset : Nat)
  /-- An element was read and a rule rejected it. -/
  | predicate (offset : Nat) (found message : String)
  /-- Both sides of an alternative failed. -/
  | alternatives (offset : Nat) (causes : List ParseError)
  /-- Every branch of a choice failed, or one that had consumed input. -/
  | expected (label : String) (offset : Nat) (causes : List ParseError)
  /-- A function rejected the values it was given. -/
  | transform (offset : Nat) (message : String)
  /-- A named parser failed. -/
  | named (label : String) (inner : ParseError)
  /-- Input was left over. -/
  | unparsed (offset : Nat) (remaining : String)
  /-- The cursor was at the start of the input and could not go back. -/
  | nothingToUnread (offset : Nat)
  /-- A failure the grammar itself asks for. -/
  | failure (offset : Nat) (message : String)
  /-- The lexer behind the input stopped with an error. -/
  | lex (error : LexError)
  deriving Repr

namespace ParseError

mutual
def message : ParseError → String
  | endOfInput _ => "unexpected end of input"
  | predicate _ found message => s!"{message}, found {found}"
  | alternatives _ causes => messages causes
  | expected label _ causes => s!"expected {label}: " ++ messages causes
  | transform _ message => message
  | named label inner => s!"{label} failed: " ++ inner.message
  | unparsed _ remaining => "unparsed input: " ++ Text.quote remaining
  | nothingToUnread _ => "nothing to unread"
  | failure _ message => message
  | lex error => "lex error: " ++ error.text

/-- The texts of several failures, separated by semicolons. -/
def messages : List ParseError → String
  | [] => ""
  | [e] => e.message
  | e :: es => e.message ++ "; " ++ messages es
end

/-- Where the failure arose. A name adds no place of its own, and a lexer's error has none. -/
def offset? : ParseError → Option Nat
  | endOfInput offset | predicate offset _ _ | alternatives offset _ | expected _ offset _
  | transform offset _ | unparsed offset _ | nothingToUnread offset | failure offset _ =>
    some offset
  | named _ inner => inner.offset?
  | lex _ => none

/-- The failures gathered by an alternative or a choice. -/
def causes : ParseError → List ParseError
  | alternatives _ causes | expected _ _ causes => causes
  | _ => []

/-- The texts of the errors that this one wraps (`Error::source`), outermost first. -/
def sources : ParseError → List String
  | named _ inner => inner.message :: inner.sources
  | lex error => [error.text]
  | _ => []

end ParseError
end Descent
