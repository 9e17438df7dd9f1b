import Descent.Proofs.Correspondence
import Descent.Proofs.TextPlaces

/-!
# Locality

What lies before the place where a run begins does not matter to it, unless the grammar asks where
it is: a run in the middle of a text is the run on the rest of the text, moved (`Moved`). Main
theorem `run_on_rest`.

The parsers that look at several characters at once are brought to one form for this, in which they
see nothing but what lies ahead of the cursor (`Parser.ahead`).
-/

namespace Descent

namespace ParseError

variable (f g : Nat → Nat)

mutual
theorem relocate_relocate : ∀ e : ParseError, (e.relocate f).relocate g = e.relocate (g ∘ f)
  | endOfInput _ | predicate _ _ _ | transform _ _ | unparsed _ _ | nothingToUnread _
  | failure _ _ | lex _ => rfl
  | alternatives offset causes =>
    congrArg (alternatives (g (f offset))) (relocateAll_relocateAll causes)
  | expected label offset causes =>
    congrArg (expected label (g (f offset))) (relocateAll_relocateAll causes)
  | named label inner => congrArg (named label) (relocate_relocate inner)

theorem relocateAll_relocateAll :
    ∀ es : List ParseError, relocateAll g (relocateAll f es) = relocateAll (g ∘ f) es
  | [] => rfl
  | e :: es => congrArg₂ List.cons (relocate_relocate e) (relocateAll_relocateAll es)
end

end ParseError

/-! ## Looking ahead -/

namespace Parser

variable {α : Type}

/-- A parser that sees what lies ahead and goes over some of it. The offsets of its failures count
from the cursor. -/
def ahead (f : List Char → Except ParseError α × Nat) : Parser TextCursor α := fun c =>
  some ⟨(f c.after).1.mapError (.relocate (c.offset + ·)), c.advance (f c.after).2⟩

/-- A `mismatch` at the cursor. -/
def mismatchAhead (after : List Char) (message : String) : ParseError :=
  match after with
  | [] => .endOfInput 0
  | x :: _ => .predicate 0 (Text.quoteChar x) message

theorem relocate_mismatchAhead (c : TextCursor) (message : String) :
    (mismatchAhead c.after message).relocate (c.offset + ·) = mismatch c message := by
  unfold mismatchAhead mismatch
  cases c.after <;> rfl

theorem string_eq_ahead (target : String) :
    string target = ahead fun cs =>
      if target.toList.isPrefixOf cs then (.ok target, target.toList.length)
      else (.error (mismatchAhead cs ("expected " ++ Text.quote target)), 0) := by
  funext c
  unfold string ahead
  by_cases h : target.toList.isPrefixOf c.after
  · simp only [h, if_true]
    rfl
  · simp only [h, if_false, Bool.false_eq_true, Except.mapError, relocate_mismatchAhead]
    rfl

theorem takeWhile_eq_ahead (p : Char → Bool) (nonempty : Bool) :
    takeWhile p nonempty = ahead fun cs =>
      if (cs.takeWhile p).isEmpty && nonempty then
        (.error (mismatchAhead cs "expected at least one matching char"), 0)
      else (.ok (String.ofList (cs.takeWhile p)), (cs.takeWhile p).length) := by
  funext c
  unfold takeWhile ahead
  by_cases h : ((c.after.takeWhile p).isEmpty && nonempty) = true
  · simp only [h, if_true, Except.mapError, relocate_mismatchAhead]
    rfl
  · simp only [h, if_false, Bool.false_eq_true]
    rfl

theorem regex_eq_ahead (source : String) (find : Regex.Finder) :
    regex source find = ahead fun cs =>
      match find cs with
      | some ⟨start, stop⟩ => (.ok (String.ofList ((cs.take stop).drop start)), stop)
      | none => (.error (mismatchAhead cs ("expected a match of /" ++ source ++ "/")), 0) := by
  funext c
  unfold regex ahead
  cases h : find c.after with
  | some m => simp only [h, Except.mapError]
  | none =>
    simp only [h, Except.mapError, relocate_mismatchAhead]
    rfl

theorem remaining_eq_ahead :
    inspect TextCursor.remaining = ahead fun cs => (.ok (String.ofList cs), 0) := rfl

end Parser

/-- What text offers, without the parsers that tell where they are. -/
def TextGrammar.placeless : Signature.text.Part where
  prim
    | .position | .input => False
    | .string _ | .takeWhile _ _ | .regex _ _ | .remaining => True
  scope
    | .location _ => False
    | .consumed | .finish => True

namespace TextCursor

/-! ## Places with something in front -/

/-- The same place, with `front` in front of the text. -/
structure Behind (front : List Char) (c d : TextCursor) : Prop where
  before : d.before = c.before ++ front.reverse
  after : d.after = c.after
  offset : d.offset = Text.width front + c.offset
  line : d.line = Text.breaks front + c.line

namespace Behind

variable {front : List Char} {c d c' d' : TextCursor}

theorem text (h : Behind front c d) : d.text = front ++ c.text := by
  simp [TextCursor.text, h.before, h.after]

theorem advance (h : Behind front c d) (n : Nat) : Behind front (c.advance n) (d.advance n) where
  before := by simp [TextCursor.advance, h.before, h.after]
  after := by simp [TextCursor.advance, h.after]
  offset := by simp only [TextCursor.advance, h.after, h.offset, Nat.add_assoc]
  line := by simp only [TextCursor.advance, h.after, h.line, Nat.add_assoc]

theorem read (h : Behind front c d) : c.read.1 = d.read.1 ∧ Behind front c.read.2 d.read.2 := by
  rw [read_eq_advance, read_eq_advance]
  exact ⟨by rw [h.after], h.advance 1⟩

/-- The same verdict on a run. -/
theorem slice (h : Behind front c d) (h' : Behind front c' d') :
    d'.slice? d.offset d'.offset = c'.slice? c.offset c'.offset := by
  unfold slice?
  rw [h'.text, h.offset, h'.offset, Text.slice?_add]

end Behind

/-- Runs on a text and on the text with `front` in front of it. -/
def behind (front : List Char) : Correspondence TextCursor TextCursor where
  Rel := Behind front
  relocate := (Text.width front + ·)
  offset h := h.offset
  apart {c d c' d'} h h' hp := by
    have hd : d'.offset = d.offset := hp
    rw [h.offset, h'.offset] at hd
    exact Nat.add_left_cancel hd
  read h := .some h.read
  unread {c d x c' d'} h hc hd := by
    -- whatever is in front, there is a character to go back over: the one just read
    have hc : c.read = (some x, c') := Option.some.inj hc
    have hd : d.read = (some x, d') := Option.some.inj hd
    rw [show Cursor.unread c' = _ from (of_read_eq_some hc).2,
      show Cursor.unread d' = _ from (of_read_eq_some hd).2]
    exact .some h
  restore h _ := h
  exhausted {c d} h := by
    have he : c.after.isEmpty = d.after.isEmpty := by rw [h.after]
    exact .some ⟨he, h⟩
  visit _ h := h

theorem matches_ahead (front : List Char) {α : Type}
    (f : List Char → Except ParseError α × Nat) :
    (behind front).Matches (Parser.ahead f) (Parser.ahead f) := by
  intro c d h
  have hcount : (d.offset + ·) = (Text.width front + ·) ∘ (c.offset + ·) := by
    funext n
    simp [h.offset, Nat.add_assoc]
  unfold Parser.ahead
  rw [h.after, hcount]
  refine .some ⟨?_, h.advance _⟩
  cases (f c.after).1 with
  | ok v => rfl
  | error e => exact congrArg Except.error (ParseError.relocate_relocate _ _ e).symm

theorem respectsOn_placeless (front : List Char) :
    (behind front).RespectsOn TextGrammar.placeless where
  prim {α p} hp := by
    cases p with
    | string target =>
      show (behind front).Matches (Parser.string target) (Parser.string target)
      rw [Parser.string_eq_ahead]
      exact matches_ahead front _
    | takeWhile p nonempty =>
      show (behind front).Matches (Parser.takeWhile p nonempty) (Parser.takeWhile p nonempty)
      rw [Parser.takeWhile_eq_ahead]
      exact matches_ahead front _
    | regex source find =>
      show (behind front).Matches (Parser.regex source find) (Parser.regex source find)
      rw [Parser.regex_eq_ahead]
      exact matches_ahead front _
    | remaining =>
      show (behind front).Matches (Parser.inspect remaining) (Parser.inspect remaining)
      rw [Parser.remaining_eq_ahead]
      exact matches_ahead front _
    | position => exact hp.elim
    | input => exact hp.elim
  scope {α β s} hs v c d c' d' h h' := by
    cases s with
    | consumed =>
      show Except.ok ((d'.slice? d.offset d'.offset).getD "") = _
      rw [h.slice h']
      rfl
    | location f => exact hs.elim
    | finish =>
      show TextScope.finish.judge d v d' = (TextScope.finish.judge c v c').mapError _
      simp only [TextScope.judge, remaining, h'.after, h'.offset]
      by_cases he : c'.after.isEmpty = true
      · rw [if_pos he, if_pos he]
        rfl
      · rw [if_neg he, if_neg he]
        rfl

/-! ## Runs -/

/-- The place at the end of `front` in a text that begins with it. -/
theorem behind_of_reachable {front rest : List Char} {d : TextCursor}
    (hd : Reachable .text (ofText (front ++ rest)) d) (ho : d.offset = Text.width front) :
    Behind front (ofText rest) d := by
  obtain ⟨hs, ht⟩ := sound_of_reachable hd
  have hw : Text.width d.before.reverse = Text.width front := by
    rw [Text.width_reverse, ← hs.offset, ho]
  obtain ⟨hb, ha⟩ := Text.append_inj ht hw
  have hbefore : d.before = front.reverse := by rw [← hb, List.reverse_reverse]
  exact
    { before := hbefore
      after := ha
      offset := ho
      line := by rw [hs.line, hbefore, Text.breaks_reverse]; rfl }

/-- The end of a run, moved by a text in front: the same value, or the same failure with all its
offsets moved, at a place that is moved as well. -/
structure Moved {α : Type} (front : List Char) (r r' : Reply TextCursor α) : Prop where
  result : r'.result = r.result.mapError (.relocate (Text.width front + ·))
  offset : r'.cursor.offset = Text.width front + r.cursor.offset
  line : r'.cursor.line = Text.breaks front + r.cursor.line

theorem moved_of_ends {α : Type} {front : List Char} {r r' : Reply TextCursor α}
    (h : (behind front).Ends r r') : Moved front r r' :=
  ⟨h.1, h.2.offset, h.2.line⟩

/-- A grammar that does not ask where it is runs from a boundary of a text as it does on the rest of
the text alone. -/
theorem run_on_rest {front rest : List Char} {d : TextCursor}
    (hd : Reachable .text (ofText (front ++ rest)) d) (ho : d.offset = Text.width front)
    {α : Type} {g : TextGrammar [] α} (hg : g.Within TextGrammar.placeless) :
    (∀ r, g.Returns (ofText rest) r → ∃ r', g.Returns d r' ∧ Moved front r r') ∧
      (∀ r', g.Returns d r' → ∃ r, g.Returns (ofText rest) r ∧ Moved front r r') := by
  have hS := respectsOn_placeless front
  have hb : (behind front).Rel (ofText rest) d := behind_of_reachable hd ho
  constructor
  · intro r hr
    obtain ⟨r', hr', he⟩ := Correspondence.returns_right_on hS hg hb hr
    exact ⟨r', hr', moved_of_ends he⟩
  · intro r' hr'
    obtain ⟨r, hr, he⟩ := Correspondence.returns_left_on hS hg hb hr'
    exact ⟨r, hr, moved_of_ends he⟩

/-- Behind a character of two bytes and a line feed, a character is read and put back. -/
theorem put_back_on_rest :
    Reachable .text (ofText (['é', '\n'] ++ ['a', 'b'])) ⟨['\n', 'é'], ['a', 'b'], 3, 2⟩ ∧
      3 = Text.width ['é', '\n'] ∧
      (.right (TextGrammar.string "a") (TextGrammar.char 'c') : TextGrammar [] Char).Within
        TextGrammar.placeless ∧
      ∃ r' : Reply TextCursor Char,
        (.right (TextGrammar.string "a") (TextGrammar.char 'c') : TextGrammar [] Char).Returns
          (⟨['\n', 'é'], ['a', 'b'], 3, 2⟩ : TextCursor) r' ∧
        r'.result = .error (.predicate 4 (Text.quoteChar 'b') ("expected " ++ Text.quoteChar 'c')) ∧
        r'.cursor.offset = 4 ∧ r'.cursor.line = 2 := by
  have hd : Reachable .text (ofText (['é', '\n'] ++ ['a', 'b'])) ⟨['\n', 'é'], ['a', 'b'], 3, 2⟩ :=
    (Reachable.start.read rfl).read rfl
  have hw : 3 = Text.width ['é', '\n'] := rfl
  have hg : (.right (TextGrammar.string "a") (TextGrammar.char 'c') : TextGrammar [] Char).Within
      TextGrammar.placeless := ⟨trivial, trivial⟩
  have hr : (.right (TextGrammar.string "a") (TextGrammar.char 'c') : TextGrammar [] Char).Returns
      (ofText ['a', 'b'])
      ⟨.error (.predicate 1 (Text.quoteChar 'b') ("expected " ++ Text.quoteChar 'c')),
        ⟨['a'], ['b'], 1, 1⟩⟩ := ⟨0, rfl⟩
  obtain ⟨r', hr', hm⟩ := (run_on_rest hd hw hg).1 _ hr
  exact ⟨hd, hw, hg, r', hr', hm.result, hm.offset, hm.line⟩

end TextCursor
end Descent
