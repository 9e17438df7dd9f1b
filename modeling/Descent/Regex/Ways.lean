import Descent.Regex.Basic
import Descent.Regex.Engine

/-!
# What a pattern finds

From a place in the text a pattern has several ways to match, of which some are preferred: the
first alternative over the second, and one more round of a repetition over none if it is greedy.
`Pattern.ways` tries them in this order. A search finds the first place from which there is a way,
and the most preferred way there (`Ways.first`).
-/

namespace Descent.Regex

/-- A place in the text that is searched. -/
structure Site where
  /-- The character before the place. -/
  prev : Option Char
  rest : List Char

namespace Site

def start (text : List Char) : Site := ⟨none, text⟩

/-- So many characters further. -/
def skip : (k : Nat) → Site → Site
  | 0, s | _ + 1, s@⟨_, []⟩ => s
  | k + 1, ⟨_, c :: rest⟩ => skip k ⟨some c, rest⟩

def wordBefore (s : Site) : Bool := s.prev.any Text.isWord

def wordAfter (s : Site) : Bool := s.rest.head?.any Text.isWord

end Site

/-- Whether the place meets the condition. -/
def Look.holds (s : Site) : Look → Bool
  | textStart => s.prev.isNone
  | textEnd => s.rest.isEmpty
  | lineStart => s.prev.isNone || s.prev == some '\n'
  | lineEnd => s.rest.isEmpty || s.rest.head? == some '\n'
  | wordEdge => s.wordBefore != s.wordAfter
  | notWordEdge => s.wordBefore == s.wordAfter
  | wordStart => !s.wordBefore && s.wordAfter
  | wordEnd => s.wordBefore && !s.wordAfter
  | wordStartHalf => !s.wordBefore
  | wordEndHalf => !s.wordAfter

/-- How many characters each way to match takes up, the most preferred way first. -/
abbrev Ways := Site → List Nat

namespace Ways

/-- One after the other. -/
def seq (W V : Ways) : Ways := fun s =>
  (W s).flatMap fun k => (V (s.skip k)).map (k + ·)

/-- Up to so many further rounds. One that takes up nothing is the last. -/
def rounds (W : Ways) (greedy : Bool) : (most : Nat) → Ways
  | 0, _ => [0]
  | most + 1, s =>
    let again := (W s).flatMap fun k =>
      if k = 0 then [0] else (rounds W greedy most (s.skip k)).map (k + ·)
    if greedy then again ++ [0] else 0 :: again

/-- At least `least` and at most `most` rounds. Without a limit there are at most as many as there
are characters. -/
def repeated (W : Ways) (greedy : Bool) : (least : Nat) → (most : Option Nat) → Ways
  | 0, most => fun s => W.rounds greedy (most.getD s.rest.length) s
  | least + 1, most => W.seq (W.repeated greedy least (most.map (· - 1)))

/-- From the start of the text only, as behind a start anchor. -/
def atStart (W : Ways) : Ways := fun s => if s.prev.isNone then W s else []

/-- The most preferred way from the first place that has one, which is looked for from the place
behind `index` characters on. -/
def firstFrom (W : Ways) : (index : Nat) → (prev : Option Char) → List Char → Option Span
  | index, prev, [] => (W ⟨prev, []⟩).head?.map fun k => ⟨index, index + k⟩
  | index, prev, c :: rest =>
    ((W ⟨prev, c :: rest⟩).head?.map fun k => ⟨index, index + k⟩).or
      (W.firstFrom (index + 1) (some c) rest)

/-- The match in a text. -/
def first (W : Ways) : Finder := W.firstFrom 0 none

theorem firstFrom_atStart (W : Ways) (index : Nat) (c : Char) (text : List Char) :
    W.atStart.firstFrom index (some c) text = none := by
  induction text generalizing index c with
  | nil => rfl
  | cons x text ih => exact ih (index + 1) x

/-- Behind a start anchor there is a match at the start of the text, or none. -/
theorem first_atStart (W : Ways) (text : List Char) :
    W.atStart.first text = (W ⟨none, text⟩).head?.map (⟨0, ·⟩) := by
  cases text with
  | nil => simp [first, firstFrom, atStart]
  | cons c text => simp [first, firstFrom, atStart, firstFrom_atStart]

end Ways

/-- The ways to match a pattern. -/
def Pattern.ways : Pattern → Ways
  | empty, _ => [0]
  | literal t, s => if t.isPrefixOf s.rest then [t.length] else []
  | set cs, s => if s.rest.head?.any cs.has then [1] else []
  | look l, s => if l.holds s then [0] else []
  | cat p q, s => p.ways.seq q.ways s
  | alt p q, s => p.ways s ++ q.ways s
  | «repeat» least most greedy p, s => p.ways.repeated greedy least most s
  | group _ p, s => p.ways s

/-- A start anchor before a pattern. -/
theorem Pattern.ways_anchored (p : Pattern) : (cat (look .textStart) p).ways = p.ways.atStart := by
  funext s
  cases hs : s.prev <;> simp [ways, Ways.seq, Ways.atStart, Look.holds, Site.skip, hs]

/-- The engine accepts `source` when it is tied to the start of what is searched. It takes it for
the pattern `p`, and finds the most preferred way to match it there. -/
def Engine.Reads (E : Engine) (source : String) (p : Pattern) : Prop :=
  E.anchored? source = some p.ways.atStart.first

end Descent.Regex
