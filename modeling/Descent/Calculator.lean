import Descent.Grammar.Text
import Descent.Regex.Ways

/-!
# A calculator

A grammar that evaluates arithmetic expressions while it reads them (`make_calculator`). Products
bind tighter than sums (`chain_l1`), both group to the left, and `sqrt` applies to a parenthesis.
What numbers are and how they are computed with is a parameter, and so is the engine that finds
literals.
-/

namespace Descent.Calculator

/-- Numbers that can be read and computed with. -/
structure Arithmetic (ν : Type) where
  /-- The number that a literal writes. -/
  ofText : String → ν
  add : ν → ν → ν
  sub : ν → ν → ν
  mul : ν → ν → ν
  div : ν → ν → ν
  sqrt : ν → ν

open Regex Regex.Pattern TextGrammar

/-- The literals: an optional sign, digits with a point before or among them, and perhaps an
exponent. -/
def numberText : String := "[-+]?[0-9]*\\.?[0-9]+([eE][-+]?[0-9]+)?"

def digits : Pattern := .set (.range '0' '9')

def optSign : Pattern := .repeat 0 (some 1) true (.set (.ofList ['-', '+']))

def exponent : Pattern :=
  .cats [.set (.ofList ['e', 'E']), optSign, .repeat 1 none true digits]

def numberPattern : Pattern :=
  .cats [optSign, .repeat 0 none true digits, .repeat 0 (some 1) true (.literal ['.']),
    .repeat 1 none true digits, .repeat 0 (some 1) true (.group 1 exponent)]

variable {ν : Type} {Γ : List Type}

/-- A literal, as `find` finds it. -/
def number (find : Finder) (a : Arithmetic ν) : TextGrammar Γ ν :=
  .named "number" (.map a.ofText (lexeme (regex numberText find)))

def parens (expr : TextGrammar Γ ν) : TextGrammar Γ ν :=
  .left (.right (lexeme (char '(')) expr) (lexeme (char ')'))

def root (a : Arithmetic ν) (expr : TextGrammar Γ ν) : TextGrammar Γ ν :=
  .map a.sqrt
    (.left (.right (.pair (lexeme (string "sqrt")) (lexeme (char '('))) expr) (lexeme (char ')')))

def atom (find : Finder) (a : Arithmetic ν) (expr : TextGrammar Γ ν) : TextGrammar Γ ν :=
  .choice "numeric expression" fun i : Fin 3 =>
    match i with
    | 0 => number find a
    | 1 => parens expr
    | 2 => root a expr

def operator (label : String) (x y : Char) (f g : ν → ν → ν) : TextGrammar Γ (ν → ν → ν) :=
  .choice label (.both (.constant (lexeme (char x)) f) (.constant (lexeme (char y)) g))

/-- Sums of products of atoms, each a `chain_l1`. -/
def sum (find : Finder) (a : Arithmetic ν) : TextGrammar (ν :: Γ) ν :=
  .chainLeft
    (.chainLeft (atom find a (.ref .here)) (operator "'*' or '/'" '*' '/' a.mul a.div))
    (operator "'+' or '-'" '+' '-' a.add a.sub)

def grammar (find : Finder) (a : Arithmetic ν) : TextGrammar [] ν :=
  TextGrammar.finish (.right (.skipMany space) (.fix 0 (sum find a)))

/-- The grammar, if the engine accepts the pattern of literals. -/
def grammar? (E : Engine) (a : Arithmetic ν) : Option (TextGrammar [] ν) :=
  (E.anchored? numberText).map fun find => grammar find a

end Descent.Calculator
