import Descent.Regex.Basic

/-!
# Automata

A pattern is matched by an automaton that reads characters. Its nodes are numbered; a node reads a
character of a set, asks for a condition, or offers two ways to go on, the first one preferred.
`Pattern.automaton` builds one node for each set and condition, one for each choice, and copies of
what is repeated a fixed number of times.
-/

namespace Descent.Regex

inductive Node
  /-- A match ends here. -/
  | accept
  | read (s : CharSet) (next : Nat)
  | ask (l : Look) (next : Nat)
  /-- Go on at either node, preferring the first. -/
  | fork (first second : Nat)
  deriving DecidableEq, Repr

structure Automaton where
  nodes : Array Node
  start : Nat
  /-- Whether a match is bound to begin at the start of the text. -/
  anchored : Bool
  /-- Whether there are conditions about words. -/
  asksWords : Bool
  deriving DecidableEq, Repr

def Automaton.node (a : Automaton) (i : Nat) : Node := a.nodes.getD i .accept

/-- Nodes with a number for the first to be visited. -/
abbrev Draw := Nat → Array Node → Nat × Array Node

namespace Draw

def emit (n : Node) (nodes : Array Node) : Nat × Array Node := (nodes.size, nodes.push n)

/-- A choice between one more round and going on. -/
def fork (greedy : Bool) (more done : Nat) : Node :=
  if greedy then .fork more done else .fork done more

/-- The same nodes so many times, each after the one before it. -/
def times (draw : Draw) : Nat → Draw
  | 0 => fun next nodes => (next, nodes)
  | n + 1 => fun next nodes =>
    let (entry, nodes) := times draw n next nodes
    draw entry nodes

/-- A choice between the nodes and what follows `done`. -/
def orDone (greedy : Bool) (done : Nat) (draw : Draw) : Draw := fun next nodes =>
  let (entry, nodes) := draw next nodes
  emit (fork greedy entry done) nodes

/-- The nodes once or more often. The choice of another round comes after each; its number is
handed to `enter` along with that of the first node. -/
def loop (greedy : Bool) (draw : Draw) (enter : (first again : Nat) → Draw) : Draw :=
  fun next nodes =>
    let again := nodes.size
    let (first, nodes) := draw again (nodes.push .accept)
    enter first again next (nodes.setIfInBounds again (fork greedy first next))

end Draw

namespace Pattern

/-- The nodes of a pattern, in front of the node `next`. What consumes nothing in some round is
repeated any number of times by being repeated at least once, or else not at all: a round that
consumes nothing comes to the choice of another round, but not to its own beginning. -/
def draw : Pattern → Draw
  | empty => fun next nodes => (next, nodes)
  | literal s => fun next nodes =>
    s.foldr (fun c (next, nodes) => Draw.emit (.read (.single c) next) nodes) (next, nodes)
  | set s => fun next => Draw.emit (.read s next)
  | look l => fun next => Draw.emit (.ask l next)
  | cat p q => fun next nodes =>
    let (middle, nodes) := q.draw next nodes
    p.draw middle nodes
  | alt p q => fun next nodes =>
    let (first, nodes) := p.draw next nodes
    let (second, nodes) := q.draw next nodes
    Draw.emit (.fork first second) nodes
  | «repeat» 0 none greedy p =>
    if p.consumes then Draw.loop greedy p.draw fun _ again _ nodes => (again, nodes)
    else Draw.loop greedy p.draw fun first _ next nodes =>
      Draw.emit (Draw.fork greedy first next) nodes
  | «repeat» (least + 1) none greedy p =>
    Draw.loop greedy p.draw fun first _ _ nodes => Draw.times p.draw least first nodes
  | «repeat» least (some most) greedy p => fun next nodes =>
    let (entry, nodes) := Draw.times (Draw.orDone greedy next p.draw) (most - least) next nodes
    Draw.times p.draw least entry nodes
  | group _ p => p.draw

def automaton (p : Pattern) : Automaton :=
  let (start, nodes) := p.draw 0 #[.accept]
  { nodes, start, anchored := p.isAnchored, asksWords := p.asksWords }

end Pattern
end Descent.Regex
