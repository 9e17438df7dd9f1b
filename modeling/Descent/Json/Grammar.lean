import Descent.Grammar.Text
import Descent.Json.Basic
import Descent.Regex.Ways

/-!
# A grammar for JSON

The grammar of the formatter (`make_json_parser`). Strings are read without decoding their escapes,
so that a value is written back as it was read. An engine finds the literals, and arrays and objects
are lists with separators (`sep_by`).
-/

namespace Descent.Json

open Regex Regex.Pattern TextGrammar

/-- Numbers: an optional minus sign, digits, and perhaps a fraction and an exponent. -/
def numberText : String := "-?[0-9]+(\\.[0-9]+)?([eE][-+]?[0-9]+)?"

/-- Strings: between quotes, without quotes or backslashes but those after a backslash. -/
def stringText : String := "\"([^\"\\\\]|\\\\.)*\""

def digits1 : Pattern := .repeat 1 none true (.set (.range '0' '9'))

def numberPattern : Pattern :=
  .cats [.repeat 0 (some 1) true (.literal ['-']), digits1,
    .repeat 0 (some 1) true (.group 1 (.cats [.literal ['.'], digits1])),
    .repeat 0 (some 1) true (.group 2 (.cats [.set (.ofList ['e', 'E']),
      .repeat 0 (some 1) true (.set (.ofList ['-', '+'])), digits1]))]

/-- A character of a string, or a pair that starts with a backslash. -/
def stringPart : Pattern :=
  .alt (.set (CharSet.ofList ['"', '\\']).compl)
    (.cats [.literal ['\\'], .set (CharSet.single '\n').compl])

def stringPattern : Pattern :=
  .cats [.literal ['"'], .repeat 0 none true (.group 1 stringPart), .literal ['"']]

structure Lexicon where
  number : Finder
  string : Finder

def lexicon? (E : Engine) : Option Lexicon := do
  let number ← E.anchored? numberText
  let string ← E.anchored? stringText
  return { number, string }

/-- The text between the quotes. -/
def unquoted (s : String) : String := String.ofList (s.toList.drop 1).dropLast

variable {ν : Type} {Γ : List Type}

def token (text : String) : TextGrammar Γ String := lexeme (TextGrammar.string text)

def plainString (lexicon : Lexicon) : TextGrammar Γ String :=
  .named "string" (.map unquoted (lexeme (regex stringText lexicon.string)))

/-- The value of a number. -/
def numeral (lexicon : Lexicon) (ofText : String → ν) : TextGrammar Γ (Json ν) :=
  .map .number (.map ofText (lexeme (regex numberText lexicon.number)))

def boolean : TextGrammar Γ (Json ν) :=
  .choice "boolean"
    (.both (.constant (token "true") (.bool true)) (.constant (token "false") (.bool false)))

def elements (value : TextGrammar Γ (Json ν)) : TextGrammar Γ (Json ν) :=
  .map .array (.wrap (token "[") (.sepBy (token ",") value) (token "]"))

/-- A key and a value. -/
def entry (lexicon : Lexicon) (value : TextGrammar Γ (Json ν)) : TextGrammar Γ (String × Json ν) :=
  .pair (.left (plainString lexicon) (token ":")) value

def members (lexicon : Lexicon) (value : TextGrammar Γ (Json ν)) : TextGrammar Γ (Json ν) :=
  .map .object (.wrap (token "\x7b") (.sepBy (token ",") (entry lexicon value)) (token "\x7d"))

/-- Any value, in terms of itself. -/
def value (lexicon : Lexicon) (ofText : String → ν) : TextGrammar (Json ν :: Γ) (Json ν) :=
  .choice "json value" fun i : Fin 6 =>
    match i with
    | 0 => .constant (token "null") .null
    | 1 => boolean
    | 2 => numeral lexicon ofText
    | 3 => .map .string (plainString lexicon)
    | 4 => elements (.ref .here)
    | 5 => members lexicon (.ref .here)

def grammar (lexicon : Lexicon) (ofText : String → ν) : TextGrammar [] (Json ν) :=
  TextGrammar.finish (.right (.skipMany space) (.fix 0 (value lexicon ofText)))

/-- The grammar, if the engine accepts the patterns of literals. -/
def grammar? (E : Engine) (ofText : String → ν) : Option (TextGrammar [] (Json ν)) :=
  (lexicon? E).map fun lexicon => grammar lexicon ofText

end Descent.Json
