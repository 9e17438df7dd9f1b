import Descent.Error
import Descent.Lexer.Machine

/-!
# Routines

A routine is what one state of a lexer (`StateFn`) does: a sequence of steps on a machine, each
depending on what the steps before it have found, that ends by going to another state, by stopping,
with an error, or in a crash. Routines are finite trees, so that every state comes to an end.
-/

namespace Descent

/-- The steps of a state. The states of the lexer are indexed by `ι`, tokens are tagged by `τ`,
and observers are sent notes from `ω`. -/
inductive Routine (ι τ ω : Type)
  | read (k : Option Char → Routine ι τ ω)
  | peek (k : Option Char → Routine ι τ ω)
  | backup (k : Routine ι τ ω)
  /-- Publish the pending text. -/
  | emit (tag : τ) (k : Routine ι τ ω)
  /-- Drop the pending text. -/
  | dropSpan (k : Routine ι τ ω)
  /-- Look at the machine. -/
  | view (k : Machine → Routine ι τ ω)
  /-- Tell the observers. -/
  | note (w : ω) (k : Routine ι τ ω)
  | goto (next : ι)
  | stop
  | fail (e : LexError)
  | panic

namespace Routine

variable {ι τ ω : Type}

/-- Read while the next character is one that `p` holds for (`peek`), looking before each step. -/
def peekLoop (p : Char → Bool) (k : Routine ι τ ω) : (fuel : Nat) → Routine ι τ ω
  | 0 => k
  | fuel + 1 => peek fun c => if c.any p then read fun _ => peekLoop p k fuel else k

/-- Read up to the first character that `p` does not hold for, and step back over it (`backup`). -/
def readLoop (p : Char → Bool) (k : Routine ι τ ω) : (fuel : Nat) → Routine ι τ ω
  | 0 => k
  | fuel + 1 =>
    read fun
      | none => k
      | some c => if p c then readLoop p k fuel else backup k

/-- Past the characters that `p` holds for, looking before each step. -/
def readWhile (p : Char → Bool) (k : Routine ι τ ω) : Routine ι τ ω :=
  view fun m => peekLoop p k (m.after.length + 1)

/-- Past the characters that `p` holds for, stepping back at the end. -/
def readUntilFail (p : Char → Bool) (k : Routine ι τ ω) : Routine ι τ ω :=
  view fun m => readLoop p k (m.after.length + 1)

end Routine
end Descent
