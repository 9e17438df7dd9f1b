import Descent.Regex.Match
import Descent.Regex.Read

/-!
# The size of a pattern

A pattern is refused if an automaton that reads its texts byte by byte, forward or backward, would
take up more than `sizeLimit` bytes. This module counts the size of these automata without
building them, so that a repetition costs no more to count than what it repeats.

A state takes 32 bytes, a range of bytes in a state with several 8, and each of several ways to go
on 4. The bytes are those of UTF-8. A set is read by states that have their ends in common
(forward) or their beginnings (backward).
-/

namespace Descent.Regex

/-- The most bytes that an automaton may take up. -/
def sizeLimit : Nat := 10485760

def stateSize : Nat := 32

/-- The size of a state that reads bytes of several ranges. -/
def rangesSize (ranges : Nat) : Nat := stateSize + 8 * ranges

/-- The size of a state with several ways to go on. -/
def waysSize (ways : Nat) : Nat := stateSize + 4 * ways

/-! ## Sets -/

abbrev ByteRange := Nat × Nat

/-- The texts of `rest + 1` bytes that write the numbers from `lo` to `hi`, six bits in each byte
but the first, as products of ranges. `mark` is the least first byte. The fuel bounds how often the
numbers are cut where a byte would change in the middle: at most twice for each byte. -/
def byteRanges (mark : Nat) : (fuel rest lo hi : Nat) → List (List ByteRange)
  | 0, _, _, _ => []
  | _, 0, lo, hi => [[(mark + lo, mark + hi)]]
  | fuel + 1, rest + 1, lo, hi =>
    let block := 64 ^ (rest + 1)
    let first := lo / block
    let last := hi / block
    if first = last then
      (byteRanges 0x80 fuel rest (lo % block) (hi % block)).map ((mark + first, mark + first) :: ·)
    else if lo % block ≠ 0 then
      byteRanges mark fuel (rest + 1) lo ((first + 1) * block - 1) ++
        byteRanges mark fuel (rest + 1) ((first + 1) * block) hi
    else if hi % block + 1 ≠ block then
      byteRanges mark fuel (rest + 1) lo (last * block - 1) ++
        byteRanges mark fuel (rest + 1) (last * block) hi
    else [(mark + first, mark + last) :: List.replicate (rest + 1) (0x80, 0xBF)]

def rangeBetween (least most mark rest : Nat) (range : Nat × Nat) : List (List ByteRange) :=
  let lo := max least range.1
  let hi := min most range.2
  if lo ≤ hi then byteRanges mark 16 rest lo hi else []

/-- The texts that write the characters of a set, in order. The code points from 0xD800 to 0xDFFF
are not characters. -/
def CharSet.byteTexts (s : CharSet) : List (List ByteRange) :=
  s.ranges.toList.flatMap fun r =>
    rangeBetween 0 0x7F 0 0 r ++ rangeBetween 0x80 0x7FF 0xC0 1 r ++
      rangeBetween 0x800 0xD7FF 0xE0 2 r ++ rangeBetween 0xE000 0xFFFF 0xE0 2 r ++
      rangeBetween 0x10000 0x10FFFF 0xF0 3 r

/-- The texts by what they begin with. -/
def byHead : List (List ByteRange) → List (ByteRange × List (List ByteRange))
  | [] => []
  | [] :: texts => byHead texts
  | (r :: tail) :: texts =>
    match byHead texts with
    | (r', tails) :: groups =>
      if r = r' then (r, (tail :: tails)) :: groups else (r, [tail]) :: (r', tails) :: groups
    | [] => [(r, [tail])]

/-- A state that reads a byte of some ranges, with the number of the state after each. -/
abbrev ByteState := List (ByteRange × Nat)

/-- The number of the state, among those there are; a new one is put in front. Zero is the number
of the end. -/
def internState (state : ByteState) (states : List ByteState) : Nat × List ByteState :=
  match states.findIdx? (· == state) with
  | some i => (states.length - i, states)
  | none => (states.length + 1, state :: states)

/-- The state that reads these texts, of at most `length` bytes. -/
def readerState : (length : Nat) → List (List ByteRange) → List ByteState → Nat × List ByteState
  | 0, _, states => (0, states)
  | length + 1, texts, states =>
    match byHead texts with
    | [] => (0, states)
    | groups =>
      let (state, states) := groups.foldl (fun (state, states) (r, tails) =>
        let (next, states) := readerState length tails states
        ((r, next) :: state, states)) ([], states)
      internState state.reverse states

/-- The size of the states that read a character of the set forward. -/
def CharSet.forwardSize (s : CharSet) : Nat :=
  (readerState 4 s.byteTexts []).2.foldl (fun n state => n + rangesSize state.length) stateSize

/-- How many ranges the texts begin with in common. -/
def sharedRanges : List ByteRange → List ByteRange → Nat
  | r :: rs, q :: qs => if r = q then sharedRanges rs qs + 1 else 0
  | _, _ => 0

/-- The number of states that read the texts from their last byte on: texts next to each other
share what they begin with. -/
def backwardStates : (previous : List ByteRange) → List (List ByteRange) → Nat
  | _, [] => 0
  | previous, text :: texts =>
    text.length - sharedRanges previous text + backwardStates text texts

/-- The size of the states that read a character of the set backward. -/
def CharSet.backwardSize (s : CharSet) : Nat :=
  let texts := s.byteTexts
  waysSize texts.length + stateSize + stateSize * backwardStates [] texts

/-- The size of the states that read a character of the set. -/
def CharSet.size (backward : Bool) (s : CharSet) : Nat :=
  if s.isAscii then stateSize + rangesSize s.ranges.size
  else if backward then s.backwardSize
  else s.forwardSize

/-! ## Alternatives of literals -/

/-- The states that read the rest of some words. The words that go on in order are split where one
ends; between two ends, words with the same first byte go on together. -/
structure WordSplit where
  /-- The ends so far. -/
  ends : Nat
  /-- The states so far that read a byte. -/
  size : Nat
  /-- The number of these. -/
  chunks : Nat
  /-- The words since the last end, by their first byte, latest first. -/
  active : List (UInt8 × List (List UInt8))

namespace WordSplit

def add (s : WordSplit) (byte : UInt8) (tail : List UInt8) : WordSplit :=
  let rec insert : List (UInt8 × List (List UInt8)) → List (UInt8 × List (List UInt8))
    | [] => [(byte, [tail])]
    | (b, tails) :: rest =>
      if b = byte then (b, tail :: tails) :: rest else (b, tails) :: insert rest
  { s with active := insert s.active }

/-- The words since the last end are complete; `below` is the size of what follows each byte. -/
def close (s : WordSplit) (below : List (List UInt8) → Nat) : WordSplit :=
  match s.active with
  | [] => s
  | [(_, tails)] =>
    ⟨s.ends, s.size + stateSize + below tails.reverse, s.chunks + 1, []⟩
  | groups =>
    let reading := s.size + rangesSize groups.length
    ⟨s.ends, groups.foldl (fun n (_, tails) => n + below tails.reverse) reading, s.chunks + 1, []⟩

/-- A word ends. A second end without a word between counts only if words went on before. -/
def finish (s : WordSplit) (below : List (List UInt8) → Nat) : WordSplit :=
  if s.active.isEmpty && s.chunks = 0 && 0 < s.ends then s
  else
    let s := s.close below
    { s with ends := s.ends + 1 }

end WordSplit

/-- The size of the states that read one of the words, of at most `length` bytes each. Nothing is
needed after the last byte of all words. -/
def wordsSize : (length : Nat) → List (List UInt8) → Nat
  | 0, _ => 0
  | length + 1, words =>
    if words.all List.isEmpty then 0
    else
      let below := wordsSize length
      let split := words.foldl (fun (s : WordSplit) word =>
        match word with
        | [] => s.finish below
        | byte :: tail => s.add byte tail) ⟨0, 0, 0, []⟩
      let split := split.close below
      waysSize (split.chunks + split.ends) + split.size

/-- The bytes of a literal. -/
def literalBytes (s : List Char) : List UInt8 := (String.ofList s).toUTF8.toList

def words? (ps : List Pattern) : Option (List (List UInt8)) :=
  ps.mapM fun
    | .literal s => some (literalBytes s)
    | _ => none

/-! ## Patterns -/

namespace Pattern

/-- The size of the states of alternatives, whose own sizes add up to `sizes`: literals are read
together, other alternatives each on their own. -/
def altSize (backward : Bool) (ps : List Pattern) (sizes : Nat) : Nat :=
  match words? ps with
  | some words =>
    let words := if backward then words.map List.reverse else words
    stateSize + wordsSize ((words.map List.length).foldl max 0 + 1) words
  | none => waysSize ps.length + stateSize + sizes

/-- The size of the states of a pattern. Alternatives are counted together where the first of them
stands (`whole`). -/
def statesSize (backward : Bool) : (whole : Bool) → Pattern → Nat
  | _, empty | _, look _ => stateSize
  | _, literal s => stateSize * (literalBytes s).length
  | _, set s => s.size backward
  | _, cat p q => p.statesSize backward true + q.statesSize backward true
  | whole, alt p q =>
    let sizes := p.statesSize backward true + q.statesSize backward false
    if whole then altSize backward (p.choices ++ q.choices) sizes else sizes
  | _, «repeat» least none _ p =>
    let size := p.statesSize backward true
    if 0 < least then least * size + waysSize 2
    else if p.consumes then size + waysSize 2
    else size + 2 * waysSize 2 + stateSize
  | _, «repeat» least (some most) _ p =>
    let size := p.statesSize backward true
    let before := if least = 0 ∧ most ≠ 1 then stateSize else least * size
    if most = least then before
    else before + stateSize + (most - least) * (size + waysSize 2)
  | _, group _ p =>
    let size := p.statesSize backward true
    if backward then size else size + 2 * stateSize

/-- The size of the automaton of a pattern, with the states around it: one that accepts, and the
search for a place to begin, or nothing if there is only one. -/
def size (backward : Bool) (p : Pattern) : Nat :=
  let frame := if backward then stateSize else 3 * stateSize
  let search := if p.isAnchored && !backward then stateSize
    else stateSize + rangesSize 1 + waysSize 2
  search + frame + p.statesSize backward true

/-- Whether the automata are small enough. -/
def fits (p : Pattern) : Bool := p.size false ≤ sizeLimit && p.size true ≤ sizeLimit

end Pattern

/-- The engine that follows the automata of patterns. -/
def Engine.automata : Engine where
  compile source := ((Pattern.read? source).filter Pattern.fits).map (·.automaton.find?)

end Descent.Regex
