import Descent.Lexer.Token
import Descent.Text.Blank

/-!
# Classes of elements

Predicates on characters, integers and tokens as data, for grammars and lexers that are given as
data too.
-/

namespace Descent

/-- A class of characters. Letters and digits are those of ASCII. -/
inductive CharClass
  | any
  | none
  | digit
  | lower
  | upper
  | alpha
  | alnum
  | whitespace
  | nonascii
  | oneOf (chars : String)
  | not (c : CharClass)
  deriving Repr

def CharClass.has : CharClass → Char → Bool
  | any, _ => true
  | none, _ => false
  | digit, c => c.isDigit
  | lower, c => c.isLower
  | upper, c => c.isUpper
  | alpha, c => c.isAlpha
  | alnum, c => c.isAlphanum
  | whitespace, c => Text.isBlank c
  | nonascii, c => c.toNat ≥ 128
  | oneOf chars, c => chars.toList.contains c
  | not s, c => !s.has c

inductive IntClass
  | any
  | none
  | positive
  | even
  | oneOf (xs : List Int)
  | not (c : IntClass)
  deriving Repr

def IntClass.has : IntClass → Int → Bool
  | any, _ => true
  | none, _ => false
  | positive, x => x > 0
  | even, x => x % 2 == 0
  | oneOf xs, x => xs.contains x
  | not s, x => !s.has x

inductive TokenClass
  | any
  /-- The tokens with a tag and a body, as far as they are given. -/
  | like (tag body : Option String)
  | not (c : TokenClass)
  deriving Repr

def TokenClass.has : TokenClass → Token String → Bool
  | any, _ => true
  | like tag body, t => tag.all (· == t.tag) && body.all (· == t.body)
  | not s, t => !s.has t

end Descent
