import Descent.Regex.Basic

/-!
# Reading patterns

`Pattern.read?` reads the written form of a pattern and refuses what is not well formed: an
operator with nothing to repeat, a group or a class without its end, a range out of order, an
unknown escape or option, parts nested too deeply. Options such as `(?i)` hold until the end of
the group they stand in.

Readers take the characters that are left and return those after what they have read. The fuel
is the length of the text: every call that consumes a unit of it has consumed a character.
-/

namespace Descent.Regex

/-- What can be switched on and off inside a pattern. -/
structure Options where
  /-- `i`: letters match up to case. -/
  ignoreCase : Bool := false
  /-- `m`: anchors match at every line. -/
  multiLine : Bool := false
  /-- `s`: a dot matches a line feed too. -/
  dotAll : Bool := false
  /-- `U`: repetitions are lazy unless marked. -/
  swapGreed : Bool := false
  /-- `x`: white space and comments in the pattern mean nothing. -/
  spaced : Bool := false
  deriving DecidableEq, Repr

namespace Options

/-- Switch the option with this letter. The letters `u` and `R` are known and change nothing
here. -/
def set? (o : Options) (letter : Char) (value : Bool) : Option Options :=
  match letter with
  | 'i' => some { o with ignoreCase := value }
  | 'm' => some { o with multiLine := value }
  | 's' => some { o with dotAll := value }
  | 'U' => some { o with swapGreed := value }
  | 'x' => some { o with spaced := value }
  | 'u' | 'R' => some o
  | _ => none

/-- A set as it is meant under the options. -/
def cased (o : Options) (s : CharSet) : CharSet := if o.ignoreCase then s.fold else s

def literal (o : Options) (c : Char) : Pattern := .ofSet (o.cased (.single c))

end Options

def skipComment (cs : List Char) : List Char := (cs.dropWhile (· != '\n')).drop 1

/-- Past white space and comments. -/
def skipBlanks : (fuel : Nat) → List Char → List Char
  | 0, cs => cs
  | _, [] => []
  | fuel + 1, c :: cs =>
    if Text.isBlank c then skipBlanks fuel cs
    else if c = '#' then skipBlanks fuel (skipComment cs)
    else c :: cs

/-- Past white space and comments where they mean nothing. -/
def Options.skip (o : Options) (cs : List Char) : List Char :=
  if o.spaced then skipBlanks cs.length cs else cs

/-! ## Numbers and single characters -/

def hexDigit? (c : Char) : Option Nat :=
  if c.isDigit then some (c.toNat - 48)
  else if 'a' ≤ c ∧ c ≤ 'f' then some (c.toNat - 87)
  else if 'A' ≤ c ∧ c ≤ 'F' then some (c.toNat - 55)
  else none

/-- The character with the code point written by the digits. -/
def codePoint? (digits : List Char) : Option Char := do
  if digits.isEmpty then none
  let n ← digits.foldlM (fun n c => (hexDigit? c).map (16 * n + ·)) 0
  if n.isValidChar then some (Char.ofNat n) else none

/-- A code point in braces, or with exactly `count` digits. -/
def readCodePoint (o : Options) (count : Nat) (cs : List Char) : Option (Char × List Char) :=
  match o.skip cs with
  | '\x7b' :: cs =>
    let digits := cs.takeWhile (· != '\x7d')
    match cs.drop digits.length with
    | _ :: rest => (codePoint? digits).map (·, rest)
    | [] => none
  | cs =>
    if (cs.take count).length = count then (codePoint? (cs.take count)).map (·, cs.drop count)
    else none

/-- A decimal number below 2 ^ 32, with blanks around it. -/
def readDecimal (cs : List Char) : Option (Nat × List Char) :=
  let cs := cs.dropWhile Text.isBlank
  let digits := cs.takeWhile Char.isDigit
  let n := digits.foldl (fun n c => 10 * n + (c.toNat - 48)) 0
  if digits.isEmpty || n ≥ 4294967296 then none
  else some (n, (cs.drop digits.length).dropWhile Text.isBlank)

/-- What a backslash and a letter stand for. -/
inductive Escape
  | char (c : Char)
  | set (s : CharSet)
  | look (l : Look)

/-- The condition named in braces after a word edge. -/
def wordEdgeNamed? (name : String) : Option Look :=
  match name with
  | "start" => some .wordStart
  | "end" => some .wordEnd
  | "start-half" => some .wordStartHalf
  | "end-half" => some .wordEndHalf
  | _ => none

/-- A word edge, with its kind in braces if there is one. Braces that do not start with a letter
or a hyphen are left for a repetition. -/
def readWordEdge (o : Options) (cs : List Char) : Option (Escape × List Char) :=
  match cs with
  | '\x7b' :: inner =>
    let inner := o.skip inner
    let inName := fun c : Char => c.isAlpha || c == '-'
    match inner with
    | [] => none
    | c :: _ =>
      if inName c then
        let name := inner.takeWhile inName
        match inner.drop name.length with
        | '\x7d' :: rest => (wordEdgeNamed? (String.ofList name)).map (.look ·, rest)
        | _ => none
      else some (.look .wordEdge, cs)
  | _ => some (.look .wordEdge, cs)

/-- What follows a backslash. A letter or digit without a meaning is refused; any other character
of the ASCII range stands for itself. -/
def readEscape (o : Options) : List Char → Option (Escape × List Char)
  | [] => none
  | 'd' :: cs => some (.set .digit, cs)
  | 'D' :: cs => some (.set CharSet.digit.compl, cs)
  | 's' :: cs => some (.set .space, cs)
  | 'S' :: cs => some (.set CharSet.space.compl, cs)
  | 'w' :: cs => some (.set .word, cs)
  | 'W' :: cs => some (.set CharSet.word.compl, cs)
  | 'x' :: cs => (readCodePoint o 2 cs).map fun (c, cs) => (.char c, cs)
  | 'u' :: cs => (readCodePoint o 4 cs).map fun (c, cs) => (.char c, cs)
  | 'U' :: cs => (readCodePoint o 8 cs).map fun (c, cs) => (.char c, cs)
  | 'a' :: cs => some (.char '\x07', cs)
  | 'f' :: cs => some (.char '\x0c', cs)
  | 't' :: cs => some (.char '\t', cs)
  | 'n' :: cs => some (.char '\n', cs)
  | 'r' :: cs => some (.char '\r', cs)
  | 'v' :: cs => some (.char '\x0b', cs)
  | 'A' :: cs => some (.look .textStart, cs)
  | 'z' :: cs => some (.look .textEnd, cs)
  | 'b' :: cs => readWordEdge o cs
  | 'B' :: cs => some (.look .notWordEdge, cs)
  | '<' :: cs => some (.look .wordStart, cs)
  | '>' :: cs => some (.look .wordEnd, cs)
  | c :: cs => if c.isAlphanum || c.toNat ≥ 128 then none else some (.char c, cs)

/-! ## Classes -/

/-- The sets that a class can name between colons. -/
def asciiSet? (name : String) : Option CharSet :=
  let r := CharSet.range
  match name with
  | "alnum" => some (.unions [r '0' '9', r 'A' 'Z', r 'a' 'z'])
  | "alpha" => some (.unions [r 'A' 'Z', r 'a' 'z'])
  | "ascii" => some (r '\x00' '\x7f')
  | "blank" => some (.unions [.single '\t', .single ' '])
  | "cntrl" => some (.unions [r '\x00' '\x1f', .single '\x7f'])
  | "digit" => some (r '0' '9')
  | "graph" => some (r '!' '~')
  | "lower" => some (r 'a' 'z')
  | "print" => some (r ' ' '~')
  | "punct" => some (.unions [r '!' '/', r ':' '@', r '[' '\x60', r '\x7b' '~'])
  | "space" => some (.unions [r '\t' '\r', .single ' '])
  | "upper" => some (r 'A' 'Z')
  | "word" => some (.unions [r '0' '9', r 'A' 'Z', .single '_', r 'a' 'z'])
  | "xdigit" => some (.unions [r '0' '9', r 'A' 'F', r 'a' 'f'])
  | _ => none

/-- A set named between colons, from after the opening bracket; none if this is something else.
What such a set leaves out is taken from the set as it is meant under the options. -/
def readAsciiSet (o : Options) : List Char → Option (CharSet × List Char)
  | ':' :: cs =>
    let (negated, cs) := match cs with
      | '^' :: cs => (true, cs)
      | cs => (false, cs)
    let name := cs.takeWhile (· != ':')
    match cs.drop name.length, asciiSet? (String.ofList name) with
    | ':' :: ']' :: rest, some s =>
      some (if negated then (o.cased s).compl else o.cased s, rest)
    | _, _ => none
  | _ => none

def readMember (o : Options) : List Char → Option (Escape × List Char)
  | [] => none
  | '\\' :: cs => readEscape o cs
  | c :: cs => some (.char c, cs)

/-- A member of a class, or a range between two characters. A hyphen before the end of the class
or before another hyphen is not a range. -/
def readMembers (o : Options) (cs : List Char) : Option (CharSet × List Char) := do
  let (first, cs) ← readMember o cs
  let cs := o.skip cs
  let single := match first with
    | .char c => some (.single c, cs)
    | .set s => some (s, cs)
    | .look _ => none
  match cs with
  | [] => none
  | '-' :: after =>
    match o.skip after with
    | ']' :: _ | '-' :: _ => single
    | [] => none
    | after =>
      let (last, rest) ← readMember o after
      match first, last with
      | .char lo, .char hi => if lo ≤ hi then some (.range lo hi, rest) else none
      | _, _ => none
  | _ => single

/-- How two sides of a class are joined. -/
inductive Join
  | inter
  | diff
  | symmDiff

/-- The sides joined, each as it is meant under the options. -/
def Join.apply (o : Options) (j : Join) (s t : CharSet) : CharSet :=
  match j with
  | inter => .inter (o.cased s) (o.cased t)
  | diff => .diff (o.cased s) (o.cased t)
  | symmDiff => .symmDiff (o.cased s) (o.cased t)

/-- What a class holds so far. Depths count how deeply its parts are nested. -/
structure Members where
  /-- The members since the last join. -/
  side : CharSet
  /-- How many these are, as written. -/
  count : Nat
  /-- The depth of the deepest of them. -/
  depth : Nat
  /-- What stands before the last join, and its depth. -/
  before : Option (CharSet × Join × Nat)

namespace Members

def start : Members := ⟨.none, 0, 0, none⟩

def add (m : Members) (s : CharSet) (depth : Nat) : Members :=
  { m with side := m.side.union s, count := m.count + 1, depth := max m.depth depth }

def close (o : Options) (m : Members) : CharSet :=
  match m.before with
  | none => m.side
  | some (s, j, _) => j.apply o s m.side

/-- The depth of everything read so far: several members nest once, and so does a join. -/
def closeDepth (m : Members) : Nat :=
  let side := if m.count < 2 then m.depth else m.depth + 1
  match m.before with
  | none => side
  | some (_, _, depth) => max depth side + 1

/-- Start the next side. -/
def join (o : Options) (m : Members) (j : Join) : Members :=
  { start with before := some (m.close o, j, m.closeDepth) }

end Members

/-- The hyphens at the start of a class, which stand for themselves. -/
def readHyphens (o : Options) : (fuel : Nat) → Members → List Char → Members × List Char
  | 0, m, cs => (m, cs)
  | fuel + 1, m, cs =>
    match cs with
    | '-' :: cs => readHyphens o fuel (m.add (.single '-') 0) (o.skip cs)
    | cs => (m, cs)

/-- The start of a class from after its opening bracket: whether it is negated, and the members
that would mean something else further on. -/
def openClass (o : Options) (cs : List Char) : Bool × Members × List Char :=
  let (negated, cs) := match o.skip cs with
    | '^' :: cs => (true, o.skip cs)
    | cs => (false, cs)
  match readHyphens o cs.length .start cs with
  | (m, ']' :: rest) =>
    match cs with
    | '-' :: _ => (negated, m, ']' :: rest)
    | _ => (negated, m.add (.single ']') 0, o.skip rest)
  | (m, cs) => (negated, m, cs)

/-- The set that a class stands for. -/
def closeClass (o : Options) (negated : Bool) (m : Members) : CharSet :=
  let s := o.cased (m.close o)
  if negated then s.compl else s

/-- A class that has been read, with its depth. -/
structure ClassReading where
  set : CharSet
  depth : Nat
  rest : List Char

/-- The members of a class up to its closing bracket. -/
def readClass (o : Options) :
    (fuel : Nat) → (negated : Bool) → Members → List Char → Option ClassReading
  | 0, _, _, _ => none
  | fuel + 1, negated, m, cs =>
    match o.skip cs with
    | [] => none
    | ']' :: rest => some ⟨closeClass o negated m, m.closeDepth + 1, rest⟩
    | '[' :: rest =>
      match readAsciiSet o rest with
      | some (s, rest) => readClass o fuel negated (m.add s 0) rest
      | none =>
        let (inverted, inner, rest) := openClass o rest
        match readClass o fuel inverted inner rest with
        | none => none
        | some ⟨s, depth, rest⟩ => readClass o fuel negated (m.add s depth) rest
    | '&' :: '&' :: rest => readClass o fuel negated (m.join o .inter) rest
    | '-' :: '-' :: rest => readClass o fuel negated (m.join o .diff) rest
    | '~' :: '~' :: rest => readClass o fuel negated (m.join o .symmDiff) rest
    | cs =>
      match readMembers o cs with
      | none => none
      | some (s, rest) => readClass o fuel negated (m.add s 0) rest

/-! ## Repetitions -/

/-- The bounds of a counted repetition, from after the opening brace. -/
def readBounds (o : Options) (cs : List Char) : Option ((Nat × Option Nat) × List Char) := do
  let (min, cs) ← readDecimal (o.skip cs)
  match cs with
  | '\x7d' :: rest => some ((min, some min), rest)
  | ',' :: cs =>
    match o.skip cs with
    | '\x7d' :: rest => some ((min, none), rest)
    | cs =>
      let (max, cs) ← readDecimal cs
      match cs with
      | '\x7d' :: rest => if min ≤ max then some ((min, some max), rest) else none
      | _ => none
  | _ => none

/-- The pattern repeated, lazily if a question mark follows. -/
def readLazy (o : Options) (min : Nat) (max : Option Nat) (p : Pattern) :
    List Char → Pattern × List Char
  | '?' :: rest => (.repeated min max o.swapGreed p, rest)
  | cs => (.repeated min max (!o.swapGreed) p, cs)

/-! ## Groups -/

/-- The letters between the question mark of a group and its colon or closing bracket. `seen` are
the letters so far; a minus sign may stand once, before another letter. -/
def readOptions : Options → (seen : List Char) → (value : Bool) → List Char →
    Option (Options × List Char)
  | _, _, _, [] => none
  | o, seen, value, c :: cs =>
    if c = ':' ∨ c = ')' then
      if seen.head? = some '-' then none else some (o, c :: cs)
    else if c ∈ seen then none
    else if c = '-' then readOptions o (c :: seen) false cs
    else
      match o.set? c value with
      | none => none
      | some o => readOptions o (c :: seen) value cs

/-- The name of a group up to its closing bracket. -/
def readGroupName (cs : List Char) : Option (String × List Char) :=
  let name := cs.takeWhile (· != '>')
  let initial := fun c : Char => c == '_' || (Text.isWord c && !Text.isDigit c)
  let further := fun c : Char => initial c || Text.isDigit c || c == '.' || c == '[' || c == ']'
  match cs.drop name.length with
  | [] => none
  | _ :: rest =>
    if name.head?.any initial && name.all further then some (String.ofList name, rest) else none

/-- A part of a pattern: what it matches, none for a change of options, which cannot be repeated;
and how deeply it is nested. -/
structure Part where
  pattern : Option Pattern
  depth : Nat

/-- The depth of parts that stand together: several nest once. -/
def Part.deepest (depths : List Nat) : Nat :=
  let deepest := depths.foldl max 0
  if depths.length < 2 then deepest else deepest + 1

/-- What a pattern holds so far, latest first: alternatives that are complete, with their depths,
and the parts of the current one. -/
structure Draft where
  alternatives : List (Pattern × Nat)
  parts : List Part

namespace Draft

def start : Draft := ⟨[], []⟩

def add (d : Draft) (p : Pattern) (depth : Nat) : Draft := { d with parts := ⟨p, depth⟩ :: d.parts }

def current (d : Draft) : Pattern × Nat :=
  (.seq (d.parts.reverse.filterMap Part.pattern), Part.deepest (d.parts.map Part.depth))

/-- Start the next alternative. -/
def alternate (d : Draft) : Draft := ⟨d.current :: d.alternatives, []⟩

def close (d : Draft) : Pattern × Nat :=
  let all := (d.current :: d.alternatives).reverse
  (.oneOf (all.map Prod.fst), Part.deepest (all.map Prod.snd))

end Draft

/-- The groups met so far: their names, of which no two may agree, and their number. -/
structure Groups where
  names : List String
  count : Nat

/-- A pattern that has been read, with its depth and the groups met so far. -/
structure Reading where
  pattern : Pattern
  depth : Nat
  groups : Groups
  rest : List Char

/-- The alternatives of a pattern, up to its end or to the closing bracket of its group, which is
not consumed. -/
def readAlternatives : (fuel : Nat) → Options → Groups → Draft → List Char → Option Reading
  | 0, _, _, _, _ => none
  | fuel + 1, o, groups, d, cs =>
    let go := readAlternatives fuel o groups
    let finish := fun (rest : List Char) =>
      let (p, depth) := d.close
      some ⟨p, depth, groups, rest⟩
    let repeated := fun (min : Nat) (max : Option Nat) (rest : List Char) =>
      match d.parts with
      | ⟨some p, depth⟩ :: parts =>
        let (p, rest) := readLazy o min max p rest
        go { d with parts := ⟨some p, depth + 1⟩ :: parts } rest
      | _ => none
    -- A group with the options `inner`, from after what opens it.
    let group := fun (inner : Options) (groups : Groups) (wrap : Pattern → Pattern)
        (cs : List Char) =>
      match readAlternatives fuel inner groups .start cs with
      | some ⟨p, depth, groups, ')' :: rest⟩ =>
        readAlternatives fuel o groups (d.add (wrap p) (depth + 1)) rest
      | _ => none
    let numbered := { groups with count := groups.count + 1 }
    let namedGroup := fun (cs : List Char) =>
      match readGroupName cs with
      | some (name, rest) =>
        if name ∈ groups.names then none
        else group o { numbered with names := name :: groups.names } (.group numbered.count) rest
      | none => none
    match o.skip cs with
    | [] => finish []
    | ')' :: rest => finish (')' :: rest)
    | '|' :: rest => go d.alternate rest
    | '(' :: rest =>
      match o.skip rest with
      | '?' :: 'P' :: '<' :: rest => namedGroup rest
      | '?' :: '<' :: rest => namedGroup rest
      | '?' :: rest =>
        match readOptions o [] true rest with
        | some (inner, ':' :: rest) => group inner groups id rest
        | some (inner, _ :: after) =>
          if rest.head? = some ')' then none
          else readAlternatives fuel inner groups { d with parts := ⟨none, 0⟩ :: d.parts } after
        | _ => none
      | rest => group o numbered (.group numbered.count) rest
    | '*' :: rest => repeated 0 none rest
    | '+' :: rest => repeated 1 none rest
    | '?' :: rest => repeated 0 (some 1) rest
    | '\x7b' :: rest =>
      match readBounds o rest with
      | some ((min, max), rest) => repeated min max rest
      | none => none
    | '[' :: rest =>
      let (negated, m, rest) := openClass o rest
      match readClass o rest.length.succ negated m rest with
      | some ⟨s, depth, rest⟩ => go (d.add (.ofSet s) depth) rest
      | none => none
    | '.' :: rest =>
      go (d.add (.set (if o.dotAll then .all else (CharSet.single '\n').compl)) 0) rest
    | '^' :: rest => go (d.add (.look (if o.multiLine then .lineStart else .textStart)) 0) rest
    | '$' :: rest => go (d.add (.look (if o.multiLine then .lineEnd else .textEnd)) 0) rest
    | '\\' :: rest =>
      match readEscape o rest with
      | some (.char c, rest) => go (d.add (o.literal c) 0) rest
      | some (.set s, rest) => go (d.add (.ofSet s) 0) rest
      | some (.look l, rest) => go (d.add (.look l) 0) rest
      | none => none
    | c :: rest => go (d.add (o.literal c) 0) rest

/-- How deeply the parts of a pattern may be nested. -/
def maxDepth : Nat := 250

def Pattern.read? (text : String) : Option Pattern :=
  match readAlternatives (text.length + 1) {} ⟨[], 0⟩ .start text.toList with
  | some ⟨p, depth, _, []⟩ => if depth ≤ maxDepth then some p else none
  | _ => none

end Descent.Regex
