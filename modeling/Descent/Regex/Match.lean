import Descent.Regex.Automaton
import Descent.Regex.Ways

/-!
# Matching

The automaton of a pattern is followed along all ways at once, one character after the other. The
ways that are open at a place are threads, kept in order of preference; of two threads at one node
only the preferred one is kept, so their number is bounded by the automaton and not by the text.
The match is the one of the most preferred thread that accepts.

Conditions on what comes next are decided when the next character is known. A thread that waits
for such a condition keeps its place in the order; once the character is there, the nodes behind
all open conditions are visited anew (`Automaton.settle`).
-/

namespace Descent.Regex

/-- Whether the place is known to meet the condition from what precedes it. -/
def Look.holdsBehind (s : Site) (l : Look) : Bool :=
  match l with
  | textStart | lineStart | wordStartHalf => l.holds s
  | _ => false

/-- A way through the automaton that is still open: the node it has come to, and the number of
characters before the match it began. -/
structure Thread where
  node : Nat
  start : Nat
  deriving DecidableEq, Repr

/-- A set of nodes, as bits of numbers: bit `i % 60` of the number `i / 60` stands for node `i`. -/
abbrev Marks := Array Nat

namespace Marks

def none (nodes : Nat) : Marks := Array.replicate (nodes / 60 + 1) 0

def has (m : Marks) (i : Nat) : Bool := (m.getD (i / 60) 0).testBit (i % 60)

def add (m : Marks) (i : Nat) : Marks := m.modify (i / 60) (· ||| 1 <<< (i % 60))

end Marks

/-- The threads at a place, the least preferred first, and the nodes they have passed. -/
structure Front where
  seen : Marks
  threads : List Thread

namespace Automaton

/-- Follow the automaton from the nodes `todo`, in this order, without reading. Nodes that have
been passed are not visited again; a condition that does not hold yet keeps its thread. -/
def spread (a : Automaton) (holds : Look → Bool) (start : Nat) :
    (fuel : Nat) → (todo : List Nat) → Front → Front
  | 0, _, f => f
  | _, [], f => f
  | fuel + 1, i :: todo, f =>
    if f.seen.has i then a.spread holds start fuel todo f
    else
      let seen := f.seen.add i
      match a.node i with
      | .fork j k => a.spread holds start fuel (j :: k :: todo) { f with seen }
      | .ask l j =>
        a.spread holds start fuel (if holds l then j :: todo else todo)
          ⟨seen, ⟨i, start⟩ :: f.threads⟩
      | .accept | .read _ _ => a.spread holds start fuel todo ⟨seen, ⟨i, start⟩ :: f.threads⟩

/-- A thread arrives at a place. Every node is visited at most once and names at most two others,
which bounds the fuel. -/
def arrive (a : Automaton) (holds : Look → Bool) (f : Front) (t : Thread) : Front :=
  a.spread holds t.start (2 * a.nodes.size + 2) [t.node] f

/-- Threads that arrive at a place, in order of preference. -/
def gather (a : Automaton) (holds : Look → Bool) (ts : List Thread) : Front :=
  ts.foldl (a.arrive holds) ⟨.none a.nodes.size, []⟩

/-- Whether a thread waits for a condition that holds, though it was not known to. -/
def waitsAt (a : Automaton) (known holds : Look → Bool) (t : Thread) : Bool :=
  match a.node t.node with
  | .ask l _ => holds l && !known l
  | _ => false

/-- The threads at a place once all conditions are decided. -/
def settle (a : Automaton) (known holds : Look → Bool) (ts : List Thread) : List Thread :=
  if ts.any (a.waitsAt known holds) then (a.gather holds ts).threads.reverse else ts

def accepts (a : Automaton) (t : Thread) : Bool := a.node t.node == .accept

/-- Where the thread goes on after reading the character. -/
def after? (a : Automaton) (c : Char) (t : Thread) : Option Thread :=
  match a.node t.node with
  | .read s next => if s.has c then some { t with node := next } else none
  | _ => none

/-- How a search decides conditions. -/
structure Manner where
  /-- What is known of a place when threads arrive there. -/
  known : Site → Look → Bool
  /-- The characters that end the search without an answer. -/
  foreign : Char → Bool

/-- Follow the threads, which are at the place before `text`. `best` is the match found so far: a
thread that accepts ends all less preferred ones. As long as there is none, a new thread begins at
every place, unless matches are bound to the start. -/
def follow (a : Automaton) (m : Manner) :
    (prev : Option Char) → (index : Nat) → (text : List Char) → List Thread →
      (best : Option Span) → Option (Option Span)
  | prev, index, [], ts, best =>
    let site : Site := ⟨prev, []⟩
    match (a.settle (m.known site) (Look.holds site) ts).find? a.accepts with
    | some t => some (some ⟨t.start, index⟩)
    | none => some best
  | prev, index, c :: rest, ts, best =>
    if m.foreign c then none
    else
      let site : Site := ⟨prev, c :: rest⟩
      let ts := a.settle (m.known site) (Look.holds site) ts
      let found := ts.find? a.accepts
      let best := (found.map fun t => ⟨t.start, index⟩).or best
      let arriving := (ts.takeWhile (!a.accepts ·)).filterMap (a.after? c)
      let arriving :=
        if best.isNone && !a.anchored then arriving ++ [⟨a.start, index + 1⟩] else arriving
      if arriving.isEmpty && found.isNone then some best
      else
        let front := a.gather (m.known ⟨some c, rest⟩) arriving
        a.follow m (some c) (index + 1) rest front.threads.reverse best

/-- Search a text in the given manner. -/
def search (a : Automaton) (m : Manner) (text : List Char) : Option (Option Span) :=
  a.follow m none 0 text (a.gather (m.known ⟨none, text⟩) [⟨a.start, 0⟩]).threads.reverse none

/-- Conditions on what comes next wait for the next character. Words are those of the ASCII range:
if the pattern asks about words, the search gives up at any other character. -/
def waiting (a : Automaton) : Manner where
  known s := Look.holdsBehind s
  foreign c := a.asksWords && 128 ≤ c.toNat

/-- All conditions are decided at once. -/
def direct : Manner where
  known s := Look.holds s
  foreign _ := false

/-- The match in a text. -/
def find? (a : Automaton) (text : List Char) : Option Span :=
  match a.search a.waiting text with
  | some found => found
  | none => (a.search direct text).join

end Automaton
end Descent.Regex
