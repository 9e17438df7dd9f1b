import Descent.Lexer.Token
import Descent.Numeral.Bounded
import Descent.Position

/-!
# Values

What a grammar given as data produces. Every value can be written as text, which is what the
functions of such a grammar work on.
-/

namespace Descent

/-- A value of a grammar given as data. -/
inductive Value
  | unit
  | none
  | some (v : Value)
  | char (c : Char)
  | str (s : String)
  | int (i : Int)
  | list (vs : List Value)
  | tuple (vs : List Value)
  | token (t : Token String)
  | position (p : Position)
  /-- The name of an operator. -/
  | op (name : String)
  /-- An operator applied to its operands. -/
  | node (op left right : Value)
  deriving BEq

namespace Value

mutual
def text : Value → String
  | unit | none => ""
  | some v => v.text
  | char c => c.toString
  | str s => s
  | int i => toString i
  | list vs | tuple vs => texts vs
  | token t => t.body
  | position p => p.render
  | op name => name
  | node o l r => "(" ++ l.text ++ o.text ++ r.text ++ ")"

def texts : List Value → String
  | [] => ""
  | v :: vs => v.text ++ texts vs
end

/-- How many bytes a value takes up, without what it refers to. -/
def footprint : Nat := 32

/-- The number of elements, or of bytes of the text. -/
def size : Value → Nat
  | list vs | tuple vs => vs.length
  | v => v.text.utf8ByteSize

/-- The value as a signed integer of 64 bits. -/
def integer (v : Value) : Except String Int :=
  (Numeral.Bounds.signed64.read v.text.toList).mapError Numeral.Reason.text

def ofOption : Option Value → Value
  | .none => none
  | .some v => some v

def operate (o a b : Value) : Value :=
  match o, a, b with
  | op "add", int x, int y => int (Numeral.wrap64 (x + y))
  | op "sub", int x, int y => int (Numeral.wrap64 (x - y))
  | op "mul", int x, int y => int (Numeral.wrap64 (x * y))
  | op "left", a, _ => a
  | op "right", _, b => b
  | op "paren", a, b => str ("(" ++ a.text ++ " " ++ b.text ++ ")")
  | o, a, b => node o a b

end Value

/-! ## Functions on values -/

inductive Mapping
  | id
  | len
  | text
  | some
  | succ
  | unit

def Mapping.apply : Mapping → Value → Value
  | id, v => v
  | len, v => .int v.size
  | text, v => .str v.text
  | some, v => .some v
  | succ, .int n => .int (Numeral.wrap64 (n + 1))
  | succ, _ => .int 1
  | unit, _ => .unit

inductive Trial
  | int
  | nonempty
  | reject

def Trial.apply : Trial → Value → Except String Value
  | int, v => v.integer.map .int
  | nonempty, v => if v.size = 0 then .error "empty" else .ok v
  | reject, v => .error ("rejected: " ++ v.text)

inductive Lifted
  | tuple
  | reject
  | sum

/-- The sum of integers, which has to stay within 64 bits all the way. -/
def sumFrom : (acc : Int) → List Value → Except String Int
  | acc, [] => .ok acc
  | acc, v :: vs =>
    match v.integer with
    | .error m => .error m
    | .ok n =>
      if Numeral.wrap64 (acc + n) = acc + n then sumFrom (acc + n) vs else .error "overflow"

def Lifted.apply : Lifted → List Value → Except String Value
  | tuple, vs => .ok (.tuple vs)
  | reject, vs => .error ("rejected: " ++ Value.texts vs)
  | sum, vs => (sumFrom 0 vs).map .int

end Descent
