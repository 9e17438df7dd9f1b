/-!
# Decimal integers within bounds

Reading a decimal integer digit by digit, with an optional sign. What is wrong first is what is
reported: a character that is no digit, or a value that leaves the bounds.
-/

namespace Descent.Numeral

/-- Why a text is not an integer within the bounds. -/
inductive Reason
  | empty
  | invalidDigit
  | tooLarge
  | tooSmall
  deriving DecidableEq, Repr

def Reason.text : Reason → String
  | empty => "cannot parse integer from empty string"
  | invalidDigit => "invalid digit found in string"
  | tooLarge => "number too large to fit in target type"
  | tooSmall => "number too small to fit in target type"

structure Bounds where
  lo : Int
  hi : Int

/-- The integers from -2 ^ 63 to 2 ^ 63 - 1. -/
def Bounds.signed64 : Bounds := ⟨-9223372036854775808, 9223372036854775807⟩

def Bounds.unsigned16 : Bounds := ⟨0, 65535⟩

namespace Bounds

/-- The digits after the value `acc`, each counted with the sign. -/
def readDigits (b : Bounds) (sign : Int) : (acc : Int) → List Char → Except Reason Int
  | acc, [] => .ok acc
  | acc, c :: cs =>
    if c.isDigit then
      let acc := 10 * acc + sign * (c.toNat - 48 : Nat)
      if b.hi < acc then .error .tooLarge
      else if acc < b.lo then .error .tooSmall
      else b.readDigits sign acc cs
    else .error .invalidDigit

/-- An integer within the bounds. A minus sign is a digit like any other where no integer is
negative. -/
def read (b : Bounds) : List Char → Except Reason Int
  | [] => .error .empty
  | ['+'] | ['-'] => .error .invalidDigit
  | '+' :: cs => b.readDigits 1 0 cs
  | '-' :: cs => if b.lo < 0 then b.readDigits (-1) 0 cs else .error .invalidDigit
  | cs => b.readDigits 1 0 cs

end Bounds

/-- The integer of 64 bits that agrees with `x` modulo 2 ^ 64. -/
def wrap64 (x : Int) : Int := x.bmod 18446744073709551616

end Descent.Numeral
