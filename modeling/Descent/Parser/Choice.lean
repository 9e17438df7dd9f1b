import Descent.Parser.Basic

/-!
# Choice: `or` / `attempt` / `look_ahead` / `maybe` / `choice` / `try_choice`

A choice is committed: an alternative that fails after consuming input ends the choice, and only
one that fails where it started lets the next one run. `attempt` takes the consumption of a failed
run back, so that the next alternative runs in any case.
-/

namespace Descent.Parser

variable {σ ε α : Type}

/-- `p`; if it fails without consuming, `q`. -/
def or [Cursor σ ε] (p q : Parser σ α) : Parser σ α := fun start =>
  match p start with
  | none => none
  | some ⟨.ok v, c⟩ => some ⟨.ok v, c⟩
  | some ⟨.error e, c⟩ =>
    if Cursor.offset c = Cursor.offset start then
      match q c with
      | none => none
      | some ⟨.ok v, d⟩ => some ⟨.ok v, d⟩
      | some ⟨.error f, d⟩ =>
        if Cursor.offset d = Cursor.offset start then
          some ⟨.error (.alternatives (Cursor.offset start) [e, f]), d⟩
        else some ⟨.error f, d⟩
    else some ⟨.error e, c⟩

/-- `p`; a failed run goes back to its start. -/
def attempt [Cursor σ ε] (p : Parser σ α) : Parser σ α := fun start =>
  match p start with
  | none => none
  | some ⟨.ok v, c⟩ => some ⟨.ok v, c⟩
  | some ⟨.error e, c⟩ => some ⟨.error e, Cursor.restore c start⟩

/-- `p` without consuming anything, whether it succeeds or fails (`look_ahead`). -/
def lookAhead [Cursor σ ε] (p : Parser σ α) : Parser σ α := fun start =>
  match p start with
  | none => none
  | some ⟨r, c⟩ => some ⟨r, Cursor.restore c start⟩

/-- `p`, or nothing at all (`maybe`). -/
def opt [Cursor σ ε] (p : Parser σ α) : Parser σ (Option α) := fun start =>
  match p start with
  | none => none
  | some ⟨.ok v, c⟩ => some ⟨.ok (some v), c⟩
  | some ⟨.error _, c⟩ => some ⟨.ok none, Cursor.restore c start⟩

/-- The first of the parsers that succeeds. The choice ends with the failures met so far when
one fails after consuming from the offset `start`, or when none is left. -/
def choiceFrom [Cursor σ ε] (label : String) (start : Nat) :
    List (Parser σ α) → (causes : List ParseError) → Parser σ α
  | [], causes => throw (.expected label start causes.reverse)
  | p :: ps, causes => fun c =>
    match p c with
    | none => none
    | some ⟨.ok v, c⟩ => some ⟨.ok v, c⟩
    | some ⟨.error e, c⟩ =>
      if Cursor.offset c = start then choiceFrom label start ps (e :: causes) c
      else some ⟨.error (.expected label start (e :: causes).reverse), c⟩

/-- The first of the parsers that succeeds, committed to one that consumes. -/
def choice [Cursor σ ε] (label : String) (ps : List (Parser σ α)) : Parser σ α := fun c =>
  choiceFrom label (Cursor.offset c) ps [] c

/-- The first of the parsers that succeeds (`try_choice`). All but the last go back when they fail,
and the failure of the last is the failure of the choice. -/
def tryChoice [Cursor σ ε] (label : String) : List (Parser σ α) → Parser σ α
  | [] => fun c => throw (.expected label (Cursor.offset c) []) c
  | [p] => p
  | p :: q :: ps => fun start =>
    match p start with
    | none => none
    | some ⟨.ok v, c⟩ => some ⟨.ok v, c⟩
    | some ⟨.error _, c⟩ => tryChoice label (q :: ps) (Cursor.restore c start)

end Descent.Parser
