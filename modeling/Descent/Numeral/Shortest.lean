/-!
# The shortest decimal for a binary number

A binary floating point number stands for all reals that round to it. Among the decimals in that
interval the ones with the fewest digits are wanted, and of those the nearest to the number; if
two are equally near, the greater. For each number of digits, starting from one, it is enough to
look at the two decimals with so many digits on either side of the number.
-/

namespace Descent.Numeral

def pow10 (n : Nat) : Nat := Nat.pow 10 n

def pow2 (n : Nat) : Nat := Nat.pow 2 n

structure Decimal where
  digits : Nat
  exponent : Int
  deriving DecidableEq, Repr

/-- A positive binary number `significand * 2 ^ exponent`. -/
structure Binary where
  significand : Nat
  exponent : Int
  /-- Whether the number below is only half as far away as the number above. -/
  narrow : Bool
  deriving DecidableEq, Repr

/-- A number with the ends of its interval, as numerators over a common denominator. -/
structure Interval where
  low : Nat
  value : Nat
  high : Nat
  den : Nat
  /-- Whether the ends belong to the interval. -/
  closed : Bool

/-- The interval that rounds to the number: half way to its neighbours, the ends included if the
significand is even. -/
def Binary.interval (b : Binary) : Interval :=
  let scale := pow2 (b.exponent - 2).toNat
  { low := (4 * b.significand - (if b.narrow then 1 else 2)) * scale
    value := 4 * b.significand * scale
    high := (4 * b.significand + 2) * scale
    den := pow2 (2 - b.exponent).toNat
    closed := b.significand % 2 == 0 }

namespace Interval

def has (i : Interval) (d : Decimal) : Bool :=
  let x := d.digits * pow10 d.exponent.toNat * i.den
  let unit := pow10 (-d.exponent).toNat
  if i.closed then i.low * unit ≤ x && x ≤ i.high * unit
  else i.low * unit < x && x < i.high * unit

/-- The largest `e` with `10 ^ e` at most the number, between the bounds that `fuel` sets. -/
def magnitude (i : Interval) (fuel : Nat) : Int :=
  match (List.range fuel).find? fun k => i.value * pow10 k ≥ i.den with
  | some (k + 1) => -((k : Int) + 1)
  | some 0 =>
    match (List.range fuel).find? fun k => i.value < pow10 (k + 1) * i.den with
    | some k => k
    | none => fuel
  | none => -(fuel : Int)

/-- The multiple of `10 ^ e` at or below the number. -/
def floor (i : Interval) (e : Int) : Nat :=
  i.value * pow10 (-e).toNat / (i.den * pow10 e.toNat)

/-- Whether the multiple of `10 ^ e` above the number is at least as near as the one below. -/
def upperNearer (i : Interval) (e : Int) : Bool :=
  let below := i.floor e
  let x := 2 * i.value * pow10 (-e).toNat
  let middle := (2 * below + 1) * pow10 e.toNat * i.den
  x ≥ middle

/-- The better of the two decimals with the exponent `e` around the number, if one of them lies in
the interval. -/
def onGrid (i : Interval) (e : Int) : Option Decimal :=
  let below : Decimal := ⟨i.floor e, e⟩
  let above : Decimal := ⟨i.floor e + 1, e⟩
  match i.has below, i.has above with
  | true, true => some (if i.upperNearer e then above else below)
  | true, false => some below
  | false, true => some above
  | false, false => none

end Interval

/-- The shortest decimal that rounds to the number. Seventeen digits are always enough for the
numbers of 53 bits. -/
def Binary.shortest (b : Binary) : Decimal :=
  let i := b.interval
  let top := i.magnitude 400
  ((List.range 17).findSome? fun (k : Nat) => i.onGrid (top - (k : Int))).getD
    ⟨i.floor (top - 16), top - 16⟩

namespace Decimal

/-- The same decimal without zeros at the end of its digits, of which there are fewer than
`fuel`. -/
def trim : (fuel : Nat) → Decimal → Decimal
  | 0, d => d
  | fuel + 1, d =>
    if d.digits ≠ 0 ∧ d.digits % 10 = 0 then trim fuel ⟨d.digits / 10, d.exponent + 1⟩ else d

/-- The decimal without an exponent: all zeros up to the point are written. -/
def positional (d : Decimal) : String :=
  let d := d.trim 20
  let digits := Nat.toDigits 10 d.digits
  let places := (-d.exponent).toNat
  if places = 0 then String.ofList (digits ++ List.replicate d.exponent.toNat '0')
  else
    let digits := List.replicate (places + 1 - digits.length) '0' ++ digits
    let whole := digits.length - places
    String.ofList (digits.take whole ++ '.' :: digits.drop whole)

end Decimal
end Descent.Numeral
