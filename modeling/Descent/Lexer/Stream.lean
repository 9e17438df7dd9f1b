import Descent.Lexer.Pipeline

/-!
# Lexers as sources of tokens: `Lexer::next` / `Lexer::err`

A lexer is a pipeline with a schedule that says which side goes first when both can. Asking it for
a token runs the two sides until the consumer has its answer.
-/

namespace Descent

structure Lexer (ι τ ω : Type) where
  states : ι → Routine ι τ ω
  pipe : Pipeline ι τ ω
  /-- Whether the producer goes first at a step, counted from the start of the lexer. -/
  producerFirst : Nat → Bool
  /-- The steps so far. -/
  clock : Nat
  /-- The number of steps within which a token has to come. -/
  patience : Nat

namespace Lexer

variable {ι τ ω : Type}

/-- A lexer at the start of a text, whose consumer goes first. -/
def ofText (states : ι → Routine ι τ ω) (first : ι) (patience : Nat) (text : List Char) :
    Lexer ι τ ω where
  states := states
  pipe := Pipeline.start text (states first)
  producerFirst _ := false
  clock := 0
  patience := patience

/-- One step of the pipeline by the side whose turn it is, or by the other one if that side has
to wait; with the consumer's answer if the step gives one. -/
def step (l : Lexer ι τ ω) : Option (Option (Option (Token τ)) × Lexer ι τ ω) :=
  let byProducer := (l.pipe.produce l.states).map fun p => (none, p)
  let byConsumer := l.pipe.consume
  let chosen := if l.producerFirst l.clock then byProducer.or byConsumer
    else byConsumer.or byProducer
  chosen.map fun (answer, p) => (answer, { l with pipe := p, clock := l.clock + 1 })

/-- Steps until the consumer has its answer. -/
def await : (fuel : Nat) → Lexer ι τ ω → Option (Option (Token τ) × Lexer ι τ ω)
  | 0, _ => none
  | fuel + 1, l =>
    match l.step with
    | none => none
    | some (some answer, l) => some (answer, l)
    | some (none, l) => await fuel l

/-- The next token (`Lexer::next`); none when no more will come. -/
def next (l : Lexer ι τ ω) : Option (Option (Token τ) × Lexer ι τ ω) :=
  await l.patience { l with pipe := l.pipe.ask }

instance : Source (Lexer ι τ ω) (Token τ) := ⟨next⟩

/-- The error that ended the lexer, as far as its consumer knows. -/
def err (l : Lexer ι τ ω) : Option LexError := l.pipe.err

/-- The tokens still to come, with the lexer after them. At most `fuel` are taken. -/
def drain : (fuel : Nat) → Lexer ι τ ω → Option (List (Token τ) × Lexer ι τ ω)
  | 0, _ => none
  | fuel + 1, l =>
    match l.next with
    | none => none
    | some (none, l) => some ([], l)
    | some (some t, l) => (drain fuel l).map fun (ts, l) => (t :: ts, l)

/-- At most `n` tokens, with the lexer after them. -/
def take : (n : Nat) → Lexer ι τ ω → Option (List (Token τ) × Lexer ι τ ω)
  | 0, l => some ([], l)
  | n + 1, l =>
    match l.next with
    | none => none
    | some (none, l) => some ([], l)
    | some (some t, l) => (take n l).map fun (ts, l) => (t :: ts, l)

/-- Run the producer alone until `p` holds, or until it waits or has ended. -/
def produceUntil (p : Pipeline ι τ ω → Bool) : (fuel : Nat) → Lexer ι τ ω → Lexer ι τ ω
  | 0, l => l
  | fuel + 1, l =>
    if p l.pipe then l
    else
      match l.pipe.produce l.states with
      | none => l
      | some pipe => produceUntil p fuel { l with pipe := pipe, clock := l.clock + 1 }

def drop (l : Lexer ι τ ω) : Lexer ι τ ω := { l with pipe := l.pipe.drop }

def shown (l : Lexer ι τ ω) : String :=
  let err := match l.err with
    | none => "None"
    | some (.message text) => "Some(Message(" ++ Text.quote text ++ "))"
    | some .panicked => "Some(Panicked)"
    | some (.spawn reason) => "Some(Spawn(" ++ Text.quote reason ++ "))"
  s!"Lexer \x7b running: {!l.pipe.joined}, err: " ++ err ++ " \x7d"

def stateShown : String := "StateFn"

end Lexer
end Descent
