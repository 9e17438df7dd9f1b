import Descent.Calculator
import Descent.Json.Grammar
import Descent.Numeral.Double
import Descent.Regex.Size
import Descent.Report
import Descent.Session

/-!
# Texts in, texts out

The calculator and the JSON formatter over floating point numbers of 64 bits.
-/

namespace Descent

/-- Parse a text by a grammar. Each loop and each definition goes on at most once for every
character, and once more without one. A run that has no result then has been in want of memory. -/
def Session.parseText {α : Type} (g : TextGrammar [] α) (text : List Char) (s : Session) :
    Except Crash (Reply TextCursor α) × Session :=
  let (reply, s) := s.parse (text.length + 2) g (TextCursor.ofText text)
  (reply.elim (.error .capacityOverflow) .ok, s)

def Calculator.doubles : Calculator.Arithmetic Float where
  ofText := Numeral.readDouble
  add := (· + ·)
  sub := (· - ·)
  mul := (· * ·)
  div := (· / ·)
  sqrt := Float.sqrt

inductive Tool
  /-- The value of an arithmetic expression. -/
  | calculate
  /-- A JSON document in its written form. -/
  | reformat

/-- The tool's answer to a text, if the engine accepts the patterns of its grammar. -/
def Tool.apply? (t : Tool) (text : List Char) (s : Session) :
    Option (Except Crash (Except ParseError String) × Session) :=
  match t with
  | calculate => (Calculator.grammar? .automata Calculator.doubles).map fun g =>
    let (reply, s) := s.parseText g text
    (reply.map fun r => r.result.map Numeral.showDouble, s)
  | reformat => (Json.grammar? .automata Numeral.readDouble).map fun g =>
    let (reply, s) := s.parseText g text
    (reply.bind fun r =>
      match r.result with
      | .error e => .ok (.error e)
      | .ok v => (v.render? Numeral.showDouble 0).elim (.error .widePadding) (.ok ∘ .ok), s)

/-- The tool's answer to what is typed in: a result, the report of a failure, or what is said of a
crash. -/
def Tool.respond (t : Tool) (input : String) : String :=
  match t.apply? input.toList (.new false) with
  | none => "a pattern is refused"
  | some (.ok (.ok answer), _) => answer
  | some (.ok (.error e), _) =>
    ((e.report "stdin" input.toList).shown? false).getD Crash.widePadding.text
  | some (.error crash, _) => crash.text

end Descent
