import Descent.Dynamic.Classes
import Descent.Lexer.Stream

/-!
# Lexers given by rules

Each rule names the characters that a token may start with and those that it may go on with. The
first rule that fits the next character is taken.
-/

namespace Descent.Lexer

structure Rule where
  /-- How the token starts. -/
  first : CharClass
  /-- How it goes on; a token without it is one character long. -/
  rest : Option CharClass
  /-- Whether to find the end by stepping back, rather than by looking ahead. -/
  backup : Bool
  /-- The tag; the text is dropped if there is none. -/
  tag : Option String

namespace Rule

variable {ω : Type}

/-- Close the span as the rule says, and start over. -/
def close (r : Rule) : Routine Unit String ω :=
  match r.tag with
  | some tag => .emit tag (.goto ())
  | none => .dropSpan (.goto ())

def routine (r : Rule) : Routine Unit String ω :=
  match r.rest with
  | none => r.close
  | some rest => if r.backup then .readUntilFail rest.has r.close else .readWhile rest.has r.close

end Rule

/-- One token by the rules, or the end: an empty token with the tag `eof`, if there is one, and
then nothing more. A character that starts no token is an error. -/
def byRules {ω : Type} (rules : List Rule) (eof : Option String) : Routine Unit String ω :=
  .read fun
    | none =>
      match eof with
      | some tag => .emit tag .stop
      | none => .stop
    | some c =>
      match rules.find? fun r => r.first.has c with
      | some r => r.routine
      | none => .fail (.message ("unexpected " ++ Text.quoteChar c))

/-- A lexer by rules. Every round but the last consumes a character, and no character takes more
than eight steps. -/
def ofRules {ω : Type} (rules : List Rule) (eof : Option String) (text : List Char) :
    Lexer Unit String ω :=
  .ofText (fun _ => byRules rules eof) () (8 * text.length + 64) text

end Descent.Lexer
