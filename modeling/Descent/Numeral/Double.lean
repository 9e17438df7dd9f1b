import Descent.Numeral.Shortest

/-!
# Floating point numbers of 64 bits as text

Numbers are written with the fewest digits that read back, and never with an exponent. They are
read from decimals with an optional fraction and exponent, rounded correctly.
-/

namespace Descent.Numeral

def Binary.ofDouble (x : Float) : Binary :=
  let bits : Nat := x.toBits.toNat % pow2 63
  let field : Nat := bits / pow2 52
  let fraction : Nat := bits % pow2 52
  if field = 0 then ⟨fraction, -1074, false⟩
  else ⟨pow2 52 + fraction, (field : Int) - 1075, fraction == 0 && field > 1⟩

def showDouble (x : Float) : String :=
  let sign := if x.toBits.toNat ≥ pow2 63 then "-" else ""
  if x.isNaN then "NaN"
  else if x.isInf then sign ++ "inf"
  else if x == 0 then sign ++ "0"
  else sign ++ (Binary.ofDouble x).shortest.positional

def digitsValue (cs : List Char) : Nat := cs.foldl (fun n c => 10 * n + (c.toNat - 48)) 0

/-- The decimal that a text without a sign writes: digits, and perhaps a point with more digits,
and perhaps an exponent. -/
def Decimal.ofText (cs : List Char) : Decimal :=
  let whole := cs.takeWhile Char.isDigit
  let rest := cs.drop whole.length
  let fraction := match rest with
    | '.' :: rest => rest.takeWhile Char.isDigit
    | _ => []
  let exponent : Int := match (rest.dropWhile fun c => c == '.' || c.isDigit).drop 1 with
    | '-' :: digits => -(digitsValue digits : Int)
    | '+' :: digits => digitsValue digits
    | digits => digitsValue digits
  ⟨digitsValue (whole ++ fraction), exponent - fraction.length⟩

/-- The number of 64 bits nearest to a decimal. Decimals that are far out of range are settled
without computing them. -/
def Decimal.toDouble (d : Decimal) : Float :=
  let top : Int := (Nat.toDigits 10 d.digits).length + d.exponent
  if d.digits = 0 then 0
  else if top > 400 then 1 / 0
  else if top < -400 then 0
  else if d.exponent < 0 then Float.ofScientific d.digits true (-d.exponent).toNat
  else Float.ofScientific d.digits false d.exponent.toNat

/-- The number that a text writes, with an optional sign. -/
def readDouble (s : String) : Float :=
  match s.toList with
  | '-' :: cs => -(Decimal.ofText cs).toDouble
  | '+' :: cs => (Decimal.ofText cs).toDouble
  | cs => (Decimal.ofText cs).toDouble

end Descent.Numeral
