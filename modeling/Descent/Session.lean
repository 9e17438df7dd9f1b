import Descent.Grammar.Run
import Descent.Lexer.Pipeline

/-!
# Sessions

A grammar is used again and again. Each of its recursive definitions (`fix`) is built when it is
first needed, by a run or by asking for the grammar's name, and stays built; no result depends on
that. A session remembers what is built, and keeps a log of it and of the failed parses.
-/

namespace Descent

inductive Record
  /-- A recursive definition is built. -/
  | building
  /-- The parse by the grammar with this name failed. -/
  | parseFailed (name : String) (e : ParseError)
  | lexer (e : Event Unit)

namespace Record

/-- An offset as the log shows it. -/
def shownOffset : Option Nat → String
  | none => "None"
  | some n => s!"Some({n})"

def render : Record → String
  | building => "TRACE materializing fixpoint parser"
  | parseFailed name e =>
    s!"DEBUG parse of {name} failed at offset {shownOffset e.offset?}: {e.message}"
  | lexer (.started bytes) => s!"DEBUG lexer started on {bytes} bytes"
  | lexer (.emitted start span) => s!"TRACE emit token at {start} ({span} bytes)"
  | lexer (.failed pos e) => s!"WARN lexing stopped at offset {pos}: {e.text}"
  | lexer (.stopped pos) => s!"DEBUG lexer stopped at offset {pos}"
  | lexer .crashed => "WARN lexer state function panicked"
  | lexer (.note ()) => ""

/-- The entries for the events of a lexer, whose notes are not logged. -/
def ofEvents {ω : Type} (events : List (Event ω)) : List Record :=
  events.filterMap fun
    | .started bytes => some (.lexer (.started bytes))
    | .emitted start span => some (.lexer (.emitted start span))
    | .failed pos e => some (.lexer (.failed pos e))
    | .stopped pos => some (.lexer (.stopped pos))
    | .crashed => some (.lexer .crashed)
    | .note _ => none

end Record

/-- What has happened to a grammar in use. -/
structure Session where
  /-- Whether anybody reads the log. The name of a grammar is told only if so. -/
  logged : Bool
  /-- The definitions built so far, latest first. -/
  built : List Nat
  /-- The log, latest first. -/
  log : List Record

namespace Session

variable {σ ε α : Type} {S : Signature}

def new (logged : Bool) : Session := ⟨logged, [], []⟩

def record (s : Session) (r : Record) : Session :=
  if s.logged then { s with log := r :: s.log } else s

/-- The session after these definitions have been built. -/
def withBuilt (s : Session) (built : List Nat) : Session :=
  (List.replicate (built.length - s.built.length) Record.building).foldl record
    { s with built := built }

/-- Run a grammar from a cursor. -/
def run [Cursor σ ε] [Element ε] [Interprets S σ] (fuel : Nat) (g : Grammar ε S [] α) (c : σ)
    (s : Session) : Option (Reply σ α) × Session :=
  match (g.parser fuel : Parser (Traced σ) α) ⟨c, s.built⟩ with
  | none => (none, s)
  | some ⟨r, t⟩ => (some ⟨r, t.inner⟩, s.withBuilt t.built)

def name (g : Grammar ε S [] α) (s : Session) : String × Session :=
  (g.name, s.withBuilt (g.namingCells.foldl (fun built cell => Traced.build cell built) s.built))

/-- Run a grammar, and log its failure under the name that `tell` gives. -/
def parseAs [Cursor σ ε] [Element ε] [Interprets S σ] (tell : Session → String × Session)
    (fuel : Nat) (g : Grammar ε S [] α) (c : σ) (s : Session) : Option (Reply σ α) × Session :=
  match s.run fuel g c with
  | (some ⟨.error e, c⟩, s) =>
    if s.logged then
      let (name, s) := tell s
      (some ⟨.error e, c⟩, s.record (.parseFailed name e))
    else (some ⟨.error e, c⟩, s)
  | done => done

/-- Run a grammar, and log its failure under its name (`parse`, `parse_str`). -/
def parse [Cursor σ ε] [Element ε] [Interprets S σ] (fuel : Nat) (g : Grammar ε S [] α) (c : σ)
    (s : Session) : Option (Reply σ α) × Session := s.parseAs (name g) fuel g c

/-- Run the definition of a recursive grammar by a reference to it (`FixRef::parse`), and log its
failure under the name of references. A reference does not hold the definition, which is `held` as
long as some parser does. -/
def parseRef [Cursor σ ε] [Element ε] [Interprets S σ] (held : Bool) (fuel : Nat)
    (g : Grammar ε S [] α) (c : σ) (s : Session) : Except Crash (Option (Reply σ α)) × Session :=
  if held then
    let (reply, s) := s.parseAs (fun s => (Grammar.referenceName, s)) fuel g c
    (.ok reply, s)
  else (.error .danglingReference, s)

/-- The entries up to and including the `n`-th definition that is built. -/
def throughBuilding : (n : Nat) → List Record → List Record
  | 0, _ | _, [] => []
  | n + 1, .building :: rs => .building :: throughBuilding n rs
  | n + 1, r :: rs => r :: throughBuilding (n + 1) rs

/-- Use a grammar of which some definitions cannot be built. If the use needs one of them, it
breaks off there and has no result: the log ends with the attempt, and the definition remains to
be built. -/
def guard {β : Type} (broken : List Nat) (use : Session → β × Session) (s : Session) :
    Option β × Session :=
  let (result, t) := use s
  let fresh := (t.built.take (t.built.length - s.built.length)).reverse
  match fresh.findIdx? (· ∈ broken) with
  | none => (some result, t)
  | some i =>
    let entries := (t.log.take (t.log.length - s.log.length)).reverse
    (none, { t with
      built := (fresh.take i).reverse ++ s.built
      log := (throughBuilding (i + 1) entries).reverse ++ s.log })

end Session
end Descent
