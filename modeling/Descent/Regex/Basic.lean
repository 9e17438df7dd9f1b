import Descent.Regex.CharSet

/-!
# Patterns

A pattern describes texts. Options such as case folding are already worked into its sets. Patterns
are kept in a normal form, which the constructors of this module (`ofSet`, `seq`, `oneOf`,
`repeated`) build: sequences and alternatives are nested to the right, neighbouring literals are
one literal, alternatives of single characters are a set, and what all alternatives begin with
stands before them.
-/

namespace Descent.Regex

/-- A condition on a place in the text, which consumes nothing. -/
inductive Look
  | textStart
  | textEnd
  | lineStart
  | lineEnd
  /-- Between a word character and something else. -/
  | wordEdge
  | notWordEdge
  | wordStart
  | wordEnd
  | wordStartHalf
  | wordEndHalf
  deriving DecidableEq, Repr

def Look.aboutWords : Look → Bool
  | .textStart | .textEnd | .lineStart | .lineEnd => false
  | _ => true

inductive Pattern
  | empty
  /-- These characters, of which there is at least one. -/
  | literal (s : List Char)
  | set (s : CharSet)
  | look (l : Look)
  | cat (p q : Pattern)
  /-- Either pattern, the first one preferred. -/
  | alt (p q : Pattern)
  /-- At least `min` and at most `max` times (without limit if there is none); as often as
  possible if greedy, as rarely as possible otherwise. -/
  | repeat (min : Nat) (max : Option Nat) (greedy : Bool) (p : Pattern)
  /-- A pattern in parentheses, which are told apart by their number. -/
  | group (number : Nat) (p : Pattern)
  deriving DecidableEq, Repr

namespace Pattern

/-! ## Lengths -/

def nodes : Pattern → Nat
  | empty | literal _ | set _ | look _ => 1
  | cat p q | alt p q => p.nodes + q.nodes + 1
  | «repeat» _ _ _ p | group _ p => p.nodes + 1

/-- The length of the shortest text that could match, if any could. -/
def minLength : Pattern → Option Nat
  | empty | look _ => some 0
  | literal s => some s.length
  | set s => if s.ranges.isEmpty then none else some 1
  | cat p q => do return (← p.minLength) + (← q.minLength)
  | alt p q => do return min (← p.minLength) (← q.minLength)
  | «repeat» least _ _ p => p.minLength.map (least * ·)
  | group _ p => p.minLength

/-- Whether every match consumes something. -/
def consumes (p : Pattern) : Bool := p.minLength.any (0 < ·)

/-- Whether no match consumes anything. -/
def isIdle : Pattern → Bool
  | empty | look _ => true
  | literal _ | set _ => false
  | cat p q | alt p q => p.isIdle && q.isIdle
  | «repeat» _ max _ p => max.isSome && p.isIdle
  | group _ p => p.isIdle

def isAnchored : Pattern → Bool
  | look l => l == .textStart
  | cat p q => p.isAnchored || (p.isIdle && q.isAnchored)
  | alt p q => p.isAnchored && q.isAnchored
  | «repeat» least _ _ p => 0 < least && p.isAnchored
  | group _ p => p.isAnchored
  | empty | literal _ | set _ => false

def asksWords : Pattern → Bool
  | look l => l.aboutWords
  | cat p q | alt p q => p.asksWords || q.asksWords
  | «repeat» _ _ _ p | group _ p => p.asksWords
  | empty | literal _ | set _ => false

/-! ## Sets and sequences -/

/-- A set; one of a single character is a literal. -/
def ofSet (s : CharSet) : Pattern :=
  match s.single? with
  | some c => literal [c]
  | none => set s

def parts : Pattern → List Pattern
  | empty => []
  | cat p q => p.parts ++ q.parts
  | p => [p]

/-- The same items with neighbouring literals joined. -/
def joinLiterals : List Pattern → List Pattern
  | [] => []
  | literal s :: ps =>
    match joinLiterals ps with
    | literal t :: qs => literal (s ++ t) :: qs
    | qs => literal s :: qs
  | p :: ps => p :: joinLiterals ps

/-- Patterns in a row. -/
def cats : List Pattern → Pattern
  | [] => empty
  | [p] => p
  | p :: ps => cat p (cats ps)

/-- Patterns in a row, brought to normal form. -/
def seq (ps : List Pattern) : Pattern := cats (joinLiterals (ps.flatMap parts))

/-! ## Alternatives -/

def choices : Pattern → List Pattern
  | alt p q => p.choices ++ q.choices
  | p => [p]

def alts : List Pattern → Pattern
  | [] => set .none
  | [p] => p
  | p :: ps => alt p (alts ps)

/-- The sets of alternatives that are single characters. -/
def singles? (ps : List Pattern) : Option (List CharSet) :=
  ps.mapM fun
    | literal [c] => some (.single c)
    | _ => none

def sets? (ps : List Pattern) : Option (List CharSet) :=
  ps.mapM fun
    | set s => some s
    | _ => none

/-- What two sequences begin with. -/
def commonStart : List Pattern → List Pattern → List Pattern
  | p :: ps, q :: qs => if p = q then p :: commonStart ps qs else []
  | _, _ => []

/-- Whether the pattern is a sequence of several items. -/
def isSequence : Pattern → Bool
  | cat _ _ => true
  | _ => false

/-- The items that all these patterns begin with, if all are sequences. -/
def sharedStart : List Pattern → List Pattern
  | [] => []
  | p :: ps =>
    if (p :: ps).all isSequence then ps.foldl (fun start q => commonStart start q.parts) p.parts
    else []

/-- Alternatives brought to normal form. Every unit of fuel moves at least one item out of each
alternative, so their number of nodes is fuel enough. -/
def factored : (fuel : Nat) → List Pattern → Pattern
  | 0, ps => alts ps
  | fuel + 1, ps =>
    match ps.flatMap choices with
    | [p] => p
    | ps =>
      match singles? ps, sets? ps with
      | some sets, _ | none, some sets => ofSet (.unions sets)
      | none, none =>
        match sharedStart ps with
        | [] => alts ps
        | start =>
          seq (start ++ [factored fuel (ps.map fun p => seq (p.parts.drop start.length))])

/-- Alternatives, brought to normal form. -/
def oneOf (ps : List Pattern) : Pattern :=
  factored (ps.foldl (fun n p => n + p.nodes) 1) ps

/-! ## Repetitions -/

/-- A repetition, brought to normal form: nothing is repeated more than once if it consumes
nothing. -/
def repeated (least : Nat) (most : Option Nat) (greedy : Bool) (p : Pattern) : Pattern :=
  let (least, most) := if p.isIdle then (min least 1, some (min (most.getD 1) 1)) else (least, most)
  if most = some 0 then empty
  else if least = 1 ∧ most = some 1 then p
  else «repeat» least most greedy p

end Pattern
end Descent.Regex
