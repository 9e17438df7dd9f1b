/-!
# Tables of code points

A property of characters is kept as a sorted array of disjoint ranges, searched by halving.
-/

namespace Descent.Text

/-- Inclusive ranges of code points, in increasing order. -/
abbrev Ranges := Array (Nat × Nat)

/-- Halving search for `c` among the ranges `lo, …, hi - 1`; each step at least halves their
number, so the table's size is fuel enough. -/
def Ranges.search (t : Ranges) (c : Nat) : (fuel lo hi : Nat) → Bool
  | 0, _, _ => false
  | fuel + 1, lo, hi =>
    if lo < hi then
      let mid := (lo + hi) / 2
      match t[mid]? with
      | none => false
      | some (first, last) =>
        if c < first then t.search c fuel lo mid
        else if last < c then t.search c fuel (mid + 1) hi
        else true
    else false

def Ranges.has (t : Ranges) (c : Nat) : Bool := t.search c (t.size + 1) 0 t.size

end Descent.Text
