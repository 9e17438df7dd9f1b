import Descent.Lexer.Token
import Descent.Text.Utf8

/-!
# Lexing machines

A `Machine` reads a text character by character and remembers how wide each step was, so that steps
can be undone one at a time. What it has read since it last closed a span is the pending text;
closing the span publishes it as a token or drops it.
-/

namespace Descent

/-- A machine in the middle of a text. -/
structure Machine where
  /-- The characters read so far, latest first. -/
  before : List Char
  /-- The characters not read yet. -/
  after : List Char
  /-- Where the pending text starts. -/
  start : Nat
  /-- Where the machine is. -/
  pos : Nat
  /-- The widths of the steps since `start`, latest first. A step at the end of the text has the
  width zero. -/
  widths : List Nat
  /-- The line of `pos`, counted from one. -/
  line : Nat
  deriving DecidableEq, Repr

namespace Machine

def ofText (text : List Char) : Machine := ⟨[], text, 0, 0, [], 1⟩

def input (m : Machine) : String := String.ofList (m.before.reverse ++ m.after)

/-- One step: the next character, or nothing at the end. -/
def read (m : Machine) : Option Char × Machine :=
  match m.after with
  | [] => (none, { m with widths := 0 :: m.widths })
  | c :: rest =>
    (some c,
      { m with
        before := c :: m.before
        after := rest
        pos := m.pos + c.utf8Size
        widths := c.utf8Size :: m.widths
        line := if c = '\n' then m.line + 1 else m.line })

/-- Undo the latest step that has not been undone (`Machine::backup`); nothing if there is none
since the last span was closed. -/
def backup (m : Machine) : Machine :=
  match m.widths with
  | [] => m
  | 0 :: widths => { m with widths := widths }
  | width :: widths =>
    match m.before with
    | [] => { m with widths := widths, pos := m.pos - width }
    | c :: rest =>
      { m with
        before := rest
        after := c :: m.after
        pos := m.pos - width
        widths := widths
        line := if c = '\n' then m.line - 1 else m.line }

/-- The next character, without a step. -/
def peek (m : Machine) : Option Char × Machine :=
  let (c, m) := m.read
  (c, m.backup)

def body (m : Machine) : String :=
  String.ofList (m.before.take (m.widths.filter (· ≠ 0)).length).reverse

/-- The pending text as a token. -/
def token {τ : Type} (m : Machine) (tag : τ) : Token τ :=
  ⟨tag, m.body, m.line, m.start, m.pos - m.start⟩

/-- Close the span (`Machine::emit`, `Machine::drop_span`): nothing is pending. -/
def close (m : Machine) : Machine := { m with start := m.pos, widths := [] }

end Machine
end Descent
