import Descent.Cursor.Buffered
import Descent.Lexer.Routine

/-!
# Producer and consumer: `Machine::run` / `Lexer::next` / `Lexer::join`

A lexer runs its states on one side while tokens are taken on the other. Between them is a channel
that holds one message: the producer waits until the channel is free, the consumer waits until it
holds something or the producer has closed it. `Pipeline.produce` and `Pipeline.consume` are the
steps of the two sides, and either may come next when both are possible.

Once the consumer is gone, publishing fails; tokens are discarded from then on, and the producer
ends when its current state does.
-/

namespace Descent

/-- What passes through the channel. -/
inductive Message (τ : Type)
  | token (t : Token τ)
  /-- The error that ended the producer. -/
  | fatal (e : LexError)

/-- How the producer came to its end. -/
inductive Ending
  | stopped
  | failed (e : LexError)
  | panicked
  deriving DecidableEq, Repr

/-- What the producer is about to do. -/
inductive Producer (ι τ ω : Type)
  | running (r : Routine ι τ ω)
  /-- It has a token to put into the channel. -/
  | sending (t : Token τ) (r : Routine ι τ ω)
  /-- It has a last error to put into the channel. -/
  | reporting (e : LexError)
  /-- Its states are over, and the channel is still open. -/
  | leaving (how : Ending)
  /-- It has closed the channel. -/
  | closed (how : Ending)
  | ended (how : Ending)

/-- What the consumer is about to do. -/
inductive Consumer
  /-- Nothing: it does not wait for a token. -/
  | idle
  /-- It waits for a message. -/
  | waiting
  /-- No message will follow, and it waits for the end of the producer. -/
  | joining
  /-- It is gone. -/
  | dropped
  deriving DecidableEq, Repr

/-- What observers learn about a lexer. -/
inductive Event (ω : Type)
  | started (bytes : Nat)
  | emitted (start span : Nat)
  | failed (pos : Nat) (e : LexError)
  | stopped (pos : Nat)
  /-- The consumer has found that the producer crashed. -/
  | crashed
  | note (w : ω)

/-- The two sides and the channel. -/
structure Pipeline (ι τ ω : Type) where
  machine : Machine
  producer : Producer ι τ ω
  /-- Whether the producer has found that the consumer is gone. -/
  disconnected : Bool
  channel : Option (Message τ)
  consumer : Consumer
  /-- Whether the consumer has seen the end of the producer. -/
  joined : Bool
  /-- The error that the consumer has been told. -/
  err : Option LexError
  /-- What has happened, latest first. -/
  journal : List (Event ω)

namespace Pipeline

variable {ι τ ω : Type}

def start (text : List Char) (r : Routine ι τ ω) : Pipeline ι τ ω where
  machine := Machine.ofText text
  producer := .running r
  disconnected := false
  channel := none
  consumer := .idle
  joined := false
  err := none
  journal := [.started (Text.width text)]

def record (p : Pipeline ι τ ω) (e : Event ω) : Pipeline ι τ ω :=
  { p with journal := e :: p.journal }

/-- The states of the producer come to their end in good order. -/
def finish (p : Pipeline ι τ ω) (how : Ending) : Pipeline ι τ ω :=
  { p with producer := .leaving how }.record (.stopped p.machine.pos)

/-- Go on with `r` on a machine. -/
def resume (p : Pipeline ι τ ω) (m : Machine) (r : Routine ι τ ω) : Pipeline ι τ ω :=
  { p with machine := m, producer := .running r }

/-- One step of a routine. -/
def advance (states : ι → Routine ι τ ω) (p : Pipeline ι τ ω) : Routine ι τ ω → Pipeline ι τ ω
  | .read k => p.resume p.machine.read.2 (k p.machine.read.1)
  | .peek k => p.resume p.machine.peek.2 (k p.machine.peek.1)
  | .backup k => p.resume p.machine.backup k
  | .emit tag k =>
    let t := p.machine.token tag
    let p := p.record (.emitted t.start t.span)
    if p.disconnected then p.resume p.machine.close k else { p with producer := .sending t k }
  | .dropSpan k => p.resume p.machine.close k
  | .view k => p.resume p.machine (k p.machine)
  | .note w k => (p.record (.note w)).resume p.machine k
  | .goto i => if p.disconnected then p.finish .stopped else p.resume p.machine (states i)
  | .stop => p.finish .stopped
  | .fail e => { p with producer := .reporting e }.record (.failed p.machine.pos e)
  | .panic => { p with producer := .leaving .panicked }

/-- One step of the producer (`Machine::run`); none if it waits for the channel or has ended. -/
def produce (states : ι → Routine ι τ ω) (p : Pipeline ι τ ω) : Option (Pipeline ι τ ω) :=
  match p.producer with
  | .running r => some (p.advance states r)
  | .sending t r =>
    if p.consumer = .dropped then
      some ({ p with disconnected := true }.resume p.machine.close r)
    else if p.channel.isNone then
      some ({ p with channel := some (.token t) }.resume p.machine.close r)
    else none
  | .reporting e =>
    if p.consumer = .dropped then some (p.finish (.failed e))
    else if p.channel.isNone then
      some ({ p with channel := some (.fatal e) }.finish (.failed e))
    else none
  | .leaving how => some { p with producer := .closed how }
  | .closed how => some { p with producer := .ended how }
  | .ended _ => none

/-- One step of the consumer (`Lexer::next`), with its answer if the step gives one; none if it
waits for the producer or for nothing. -/
def consume (p : Pipeline ι τ ω) : Option (Option (Option (Token τ)) × Pipeline ι τ ω) :=
  match p.consumer with
  | .idle | .dropped => none
  | .waiting =>
    match p.channel, p.producer with
    | some (.token t), _ => some (some (some t), { p with channel := none, consumer := .idle })
    | some (.fatal e), _ =>
      some (none, { p with channel := none, consumer := .joining, err := some e })
    | none, .closed _ | none, .ended _ => some (none, { p with consumer := .joining })
    | none, _ => none
  | .joining =>
    match p.producer with
    | .ended how =>
      let done := { p with consumer := .idle, joined := true }
      if how = .panicked ∧ ¬ p.joined then
        some (some none, { done with err := p.err.or (some .panicked) }.record .crashed)
      else some (some none, done)
    | _ => none

def ask (p : Pipeline ι τ ω) : Pipeline ι τ ω := { p with consumer := .waiting }

/-- The consumer goes away, with whatever is in the channel. -/
def drop (p : Pipeline ι τ ω) : Pipeline ι τ ω :=
  { p with consumer := .dropped, channel := none }

def hasEnded (p : Pipeline ι τ ω) : Bool :=
  match p.producer with
  | .ended _ => true
  | _ => false

end Pipeline
end Descent
