import Descent.Dynamic.Value
import Descent.Grammar.Text

/-!
# Grammars over values

The combinators for grammars that are given as data: every parser produces a `Value`, and so do
the parsers that its recursive definitions bind.
-/

namespace Descent

/-- Elements that grammars given as data can read. -/
class Readable (ε : Type) extends Element ε where
  /-- The element as a value. -/
  value : ε → Value
  /-- The element that a value stands for. -/
  ofValue? : Value → Option ε
  /-- The element that a character stands for. -/
  ofChar? : Char → Option ε

instance : Readable Char where
  value := .char
  ofValue? v := match v with
    | .char c => some c
    | _ => none
  ofChar? := some

instance : Readable Int where
  value := .int
  ofValue? v := match v with
    | .int i => some i
    | _ => none
  ofChar? c := if c.isDigit then some (c.toNat - 48 : Nat) else none

instance : Readable (Token String) where
  value := .token
  ofValue? v := match v with
    | .token t => some t
    | _ => none
  ofChar? _ := none

/-- A grammar over values under `k` binders. -/
abbrev ValueGrammar (ε : Type) (S : Signature) (k : Nat) :=
  Grammar ε S (List.replicate k Value) Value

namespace ValueGrammar

variable {ε : Type} {S : Signature} {k n : Nat}

/-- The binder with this index, counted from the innermost. -/
def var? : (k i : Nat) → Option (Var (List.replicate k Value) Value)
  | 0, _ => none
  | _ + 1, 0 => some .here
  | k + 1, i + 1 => (var? k i).map .there

/-- The grammar of a parser for elements. -/
def ofElement [Readable ε] (p : Grammar ε S (List.replicate k Value) ε) : ValueGrammar ε S k :=
  Grammar.map Readable.value p

def ofUnit (p : Grammar ε S (List.replicate k Value) Unit) : ValueGrammar ε S k :=
  Grammar.constant p .unit

def ofList (p : Grammar ε S (List.replicate k Value) (List Value)) : ValueGrammar ε S k :=
  Grammar.map .list p

def ofString (p : Grammar ε S (List.replicate k Value) String) : ValueGrammar ε S k :=
  Grammar.map .str p

/-! ## Elements -/

def element [Readable ε] [DecidableEq ε] (x : ε) : ValueGrammar ε S k :=
  ofElement (Grammar.element x)

def satisfy [Readable ε] (p : ε → Bool) : ValueGrammar ε S k := ofElement (Grammar.satisfy p)

/-- An element for which `p` holds; the message shows the one that is rejected. -/
def matching [Readable ε] (p : ε → Bool) (message : String) : ValueGrammar ε S k :=
  ofElement (Grammar.matching fun x =>
    if p x then .ok () else .error (message ++ ": " ++ Element.shown x))

/-! ## Functions -/

def map (f : Mapping) (p : ValueGrammar ε S k) : ValueGrammar ε S k := Grammar.map f.apply p

/-- The value with `f` applied to it, if `f` accepts it. -/
def tryMap (f : Trial) (p : ValueGrammar ε S k) : ValueGrammar ε S k := Grammar.tryMap f.apply p

/-- The value, if it has at most `n` elements or bytes. -/
def atMost (n : Int) (p : ValueGrammar ε S k) : ValueGrammar ε S k :=
  .check (fun v => v.size ≤ n) (fun v => "too long: " ++ v.text) p

/-- The values of several parsers, put together by `f`. -/
def lift (f : Lifted) : List (ValueGrammar ε S k) → ValueGrammar ε S k
  | [p] => Grammar.tryMap (fun v => f.apply [v]) p
  | ps => Grammar.tryMap f.apply (Grammar.tuple (Grammar.family ps))

/-! ## Sequences -/

def tuple (ps : List (ValueGrammar ε S k)) : ValueGrammar ε S k :=
  Grammar.map .tuple (Grammar.tuple (Grammar.family ps))

def list (ps : List (ValueGrammar ε S k)) : ValueGrammar ε S k :=
  ofList (Grammar.list (Grammar.family ps))

/-- `p`, and then the characters of its value once more. -/
def bindSame [Readable ε] [DecidableEq ε] (p : ValueGrammar ε S k) : ValueGrammar ε S k :=
  Grammar.bind p fun v => list (v.text.toList.filterMap fun c => (Readable.ofChar? c).map element)

/-- `p` for a number, and then `q` as many times. -/
def bindCount (p q : ValueGrammar ε S k) : ValueGrammar ε S k :=
  Grammar.bind p fun v =>
    match Numeral.Bounds.unsigned16.read v.text.toList with
    | .ok n => ofList (Grammar.count Value.footprint n.toNat q)
    | .error e => .fail ("count: " ++ e.text)

/-- `p`, and then the parser that its value selects. -/
def bindCases (p : ValueGrammar ε S k) (cases : List (Value × ValueGrammar ε S k))
    (other : ValueGrammar ε S k) : ValueGrammar ε S k :=
  Grammar.bind p fun v => ((cases.find? fun (w, _) => v == w).map Prod.snd).getD other

/-! ## Choice and repetition -/

def choice (label : String) (ps : List (ValueGrammar ε S k)) : ValueGrammar ε S k :=
  Grammar.choice label (Grammar.family ps)

def tryChoice (label : String) (ps : List (ValueGrammar ε S k)) : ValueGrammar ε S k :=
  Grammar.tryChoice label (Grammar.family ps)

def opt (p : ValueGrammar ε S k) : ValueGrammar ε S k := Grammar.map Value.ofOption (Grammar.opt p)

def chainLeft (p op : ValueGrammar ε S k) : ValueGrammar ε S k :=
  Grammar.chainLeft p (Grammar.map Value.operate op)

def chainRight (p op : ValueGrammar ε S k) : ValueGrammar ε S k :=
  Grammar.chainRight p (Grammar.map Value.operate op)

/-! ## Text -/

def location (p : ValueGrammar Char .text k) : ValueGrammar Char .text k :=
  TextGrammar.location (fun start stop v => .tuple [.int start, .int stop, v]) p

def position : ValueGrammar Char .text k :=
  Grammar.map .position TextGrammar.position

end ValueGrammar
end Descent
