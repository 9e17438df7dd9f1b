import Descent.Text.Blank
import Descent.Text.CaseFold
import Descent.Text.Word

/-!
# Sets of characters

A set of characters is kept as the ranges of its code points, in increasing order and with a gap
after each, so that equal sets are equal values.
-/

namespace Descent.Regex

open Text

structure CharSet where
  ranges : Ranges
  deriving DecidableEq, Repr

namespace CharSet

def has (s : CharSet) (c : Char) : Bool := s.ranges.has c.toNat

/-- The code points from `lo` to `hi` together with increasing ranges. -/
def insert (lo hi : Nat) : List (Nat × Nat) → List (Nat × Nat)
  | [] => [(lo, hi)]
  | (first, last) :: rest =>
    if last + 1 < lo then (first, last) :: insert lo hi rest
    else if hi + 1 < first then (lo, hi) :: (first, last) :: rest
    else insert (min lo first) (max hi last) rest

/-- The code points from `next` on that increasing ranges leave out. -/
def gaps (next : Nat) : List (Nat × Nat) → List (Nat × Nat)
  | [] => if next ≤ 0x10FFFF then [(next, 0x10FFFF)] else []
  | (first, last) :: rest =>
    if next < first then (next, first - 1) :: gaps (last + 1) rest else gaps (last + 1) rest

def none : CharSet := ⟨#[]⟩

def range (lo hi : Char) : CharSet := ⟨#[(lo.toNat, hi.toNat)]⟩

def single (c : Char) : CharSet := range c c

/-- The decimal numbers of all scripts. -/
def digit : CharSet := ⟨digitRanges⟩

def space : CharSet := ⟨blankRanges⟩

def word : CharSet := ⟨wordRanges⟩

def union (s t : CharSet) : CharSet :=
  let (few, many) := if s.ranges.size < t.ranges.size then (s, t) else (t, s)
  ⟨(few.ranges.foldl (fun acc (lo, hi) => insert lo hi acc) many.ranges.toList).toArray⟩

/-- The characters outside the set. -/
def compl (s : CharSet) : CharSet := ⟨(gaps 0 s.ranges.toList).toArray⟩

def all : CharSet := compl none

def inter (s t : CharSet) : CharSet := compl (union (compl s) (compl t))

def diff (s t : CharSet) : CharSet := inter s (compl t)

/-- The members of exactly one of the sets. -/
def symmDiff (s t : CharSet) : CharSet := union (diff s t) (diff t s)

/-- The members of any of the sets. -/
def unions (sets : List CharSet) : CharSet := sets.foldl union none

def ofList (cs : List Char) : CharSet := unions (cs.map single)

/-- Everything equal to a member up to case. -/
def fold (s : CharSet) : CharSet :=
  ⟨(caseOrbits.foldl (fun acc orbit =>
      if orbit.any s.ranges.has then
        (orbit.filter (!s.ranges.has ·)).foldl (fun acc c => insert c c acc) acc
      else acc)
    s.ranges.toList).toArray⟩

/-- The only member, if there is exactly one. -/
def single? (s : CharSet) : Option Char :=
  match s.ranges.toList with
  | [(first, last)] => if first = last then some (Char.ofNat first) else Option.none
  | _ => Option.none

/-- Whether all members are of the ASCII range. -/
def isAscii (s : CharSet) : Bool := s.ranges.all fun (_, last) => last < 128

end CharSet
end Descent.Regex
