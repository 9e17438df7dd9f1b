import Descent.Parser.Choice

/-!
# Repetition: `many` / `count` / `sep_by` / `many_till` / `skip_many`

Every loop undoes the iteration that fails, and also stops after an iteration that succeeds
without consuming, whose value still counts. The first argument of a loop is its fuel: one unit
for each iteration.
-/

namespace Descent.Parser

variable {σ ε α β : Type}

/-- Run `p` until it fails or stops consuming (`repeat`), on top of the values read so far, latest
first. -/
def manyFrom [Cursor σ ε] (p : Parser σ α) : (fuel : Nat) → List α → Parser σ (List α)
  | 0, _ => fun _ => none
  | fuel + 1, values => fun start =>
    match p start with
    | none => none
    | some ⟨.error _, c⟩ => some ⟨.ok values.reverse, Cursor.restore c start⟩
    | some ⟨.ok v, c⟩ =>
      if Cursor.offset c = Cursor.offset start then some ⟨.ok (v :: values).reverse, c⟩
      else manyFrom p fuel (v :: values) c

/-- `p` any number of times (`many`, `many0`). -/
def many [Cursor σ ε] (fuel : Nat) (p : Parser σ α) : Parser σ (List α) := manyFrom p fuel []

def many1 [Cursor σ ε] (fuel : Nat) (p : Parser σ α) : Parser σ (List α) :=
  p.andThen fun v => manyFrom p fuel [v]

/-- `p` exactly `n` times, on top of the values read so far, latest first. -/
def countFrom (p : Parser σ α) : (n : Nat) → List α → Parser σ (List α)
  | 0, values => pure values.reverse
  | n + 1, values => p.andThen fun v => countFrom p n (v :: values)

/-- The most bytes that can be asked for at once. -/
def largestAllocation : Nat := UInt64.size / 2 - 1

/-- `p` exactly `n` times (`count`, `take`). The values have `size` bytes each, and memory for all of
them is asked for first: there is no result if that is more than can be asked for, whatever is left
to read. -/
def count (size n : Nat) (p : Parser σ α) : Parser σ (List α) :=
  if size * n ≤ largestAllocation then countFrom p n [] else fun _ => none

/-- Run `sep` and then `p` until one of them fails or both stop consuming, on top of the values
read so far, latest first. A separator without a value after it is not consumed. -/
def sepFrom [Cursor σ ε] (sep : Parser σ β) (p : Parser σ α) :
    (fuel : Nat) → List α → Parser σ (List α)
  | 0, _ => fun _ => none
  | fuel + 1, values => fun start =>
    match (sep.right p) start with
    | none => none
    | some ⟨.error _, c⟩ => some ⟨.ok values.reverse, Cursor.restore c start⟩
    | some ⟨.ok v, c⟩ =>
      if Cursor.offset c = Cursor.offset start then some ⟨.ok (v :: values).reverse, c⟩
      else sepFrom sep p fuel (v :: values) c

/-- `p` any number of times, with `sep` between (`sep_by`). -/
def sepBy [Cursor σ ε] (fuel : Nat) (sep : Parser σ β) (p : Parser σ α) : Parser σ (List α) :=
  fun start =>
    match p start with
    | none => none
    | some ⟨.error _, c⟩ => some ⟨.ok [], Cursor.restore c start⟩
    | some ⟨.ok v, c⟩ => sepFrom sep p fuel [v] c

def sepBy1 [Cursor σ ε] (fuel : Nat) (sep : Parser σ β) (p : Parser σ α) : Parser σ (List α) :=
  p.andThen fun v => sepFrom sep p fuel [v]

/-- Run `p` until `stop` succeeds, on top of the values read so far, latest first. `stop` is tried
first each time; if `p` then succeeds without consuming, `stop` can never succeed, and its failure
is the failure of the loop. -/
def tillFrom [Cursor σ ε] (p : Parser σ α) (stop : Parser σ β) :
    (fuel : Nat) → List α → Parser σ (List α)
  | 0, _ => fun _ => none
  | fuel + 1, values => fun start =>
    match stop start with
    | none => none
    | some ⟨.ok _, c⟩ => some ⟨.ok values.reverse, c⟩
    | some ⟨.error e, c⟩ =>
      let back := Cursor.restore c start
      match p back with
      | none => none
      | some ⟨.error f, c⟩ => some ⟨.error f, c⟩
      | some ⟨.ok v, c⟩ =>
        if Cursor.offset c = Cursor.offset back then some ⟨.error e, c⟩
        else tillFrom p stop fuel (v :: values) c

/-- `p` any number of times, up to the first place where `stop` succeeds (`many_till`). -/
def manyTill [Cursor σ ε] (fuel : Nat) (p : Parser σ α) (stop : Parser σ β) :
    Parser σ (List α) := tillFrom p stop fuel []

/-- `p` any number of times, without keeping its values (`skip_many`). -/
def skipMany [Cursor σ ε] (p : Parser σ α) : (fuel : Nat) → Parser σ Unit
  | 0 => fun _ => none
  | fuel + 1 => fun start =>
    match p start with
    | none => none
    | some ⟨.error _, c⟩ => some ⟨.ok (), Cursor.restore c start⟩
    | some ⟨.ok _, c⟩ =>
      if Cursor.offset c = Cursor.offset start then some ⟨.ok (), c⟩ else skipMany p fuel c

def skipMany1 [Cursor σ ε] (fuel : Nat) (p : Parser σ α) : Parser σ Unit :=
  p.andThen fun _ => skipMany p fuel

end Descent.Parser
