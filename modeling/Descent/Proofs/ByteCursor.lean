import Descent.Grammar.Text
import Descent.Proofs.Course

/-!
# Cursors by bytes

A cursor that holds its text whole, with the number of bytes before the place, and cuts the text
anew for each step. A cut can fail, inside a character or past the end, and counting back over a
line feed can fall below zero; `faulty` says whether either has ever happened. Text grammars run on
such a cursor as they do on a `TextCursor`, step by step.
-/

namespace Descent

/-- A place in a text, as a number of bytes. -/
structure ByteCursor where
  text : List Char
  offset : Nat
  line : Nat
  /-- Whether a cut or a subtraction has failed. -/
  faulty : Bool
  deriving DecidableEq, Repr

namespace ByteCursor

/-- After a cut or a subtraction that failed. -/
def fault (c : ByteCursor) : ByteCursor := { c with faulty := true }

/-- The text after the place. -/
def rest? (c : ByteCursor) : Option (List Char) := Text.slice? c.text c.offset (Text.width c.text)

def read (c : ByteCursor) : Option Char × ByteCursor :=
  match c.rest? with
  | none => (none, c.fault)
  | some [] => (none, c)
  | some (x :: _) =>
    (some x, { c with
      offset := c.offset + x.utf8Size
      line := if x = '\n' then c.line + 1 else c.line })

def unread (c : ByteCursor) : Option ByteCursor :=
  match Text.slice? c.text 0 c.offset with
  | none => some c.fault
  | some cs =>
    match cs.getLast? with
    | none => none
    | some x =>
      if c.offset < x.utf8Size ∨ x = '\n' ∧ c.line = 0 then some c.fault
      else some { c with
        offset := c.offset - x.utf8Size
        line := if x = '\n' then c.line - 1 else c.line }

def advance (c : ByteCursor) (n : Nat) : ByteCursor :=
  match Text.slice? c.text c.offset (c.offset + n) with
  | none => c.fault
  | some passed => { c with offset := c.offset + n, line := c.line + Text.breaks passed }

instance : Cursor ByteCursor Char where
  read c := some c.read
  unread := unread
  restore now earlier := { now with offset := earlier.offset, line := earlier.line }
  offset := offset
  exhausted c := some (c.offset == Text.width c.text, c)

/-- A parser that looks at the text after the place. -/
def withRest {α : Type} (f : List Char → ByteCursor → Except ParseError α × ByteCursor) :
    Parser ByteCursor α := fun c =>
  match c.rest? with
  | none => some ⟨.error (.endOfInput c.offset), c.fault⟩
  | some cs => some ⟨(f cs c).1, (f cs c).2⟩

def mismatch (cs : List Char) (c : ByteCursor) (message : String) : ParseError :=
  match cs with
  | [] => .endOfInput c.offset
  | x :: _ => .predicate c.offset (Text.quoteChar x) message

def string (target : String) : Parser ByteCursor String := withRest fun cs c =>
  if target.toList.isPrefixOf cs then (.ok target, c.advance (Text.width target.toList))
  else (.error (mismatch cs c ("expected " ++ Text.quote target)), c)

/-- The characters up to the first that `p` rejects; if `nonempty`, there must be one. -/
def takeWhile (p : Char → Bool) (nonempty : Bool) : Parser ByteCursor String :=
  withRest fun cs c =>
    let length := Text.width (cs.takeWhile p)
    if length == 0 && nonempty then
      (.error (mismatch cs c "expected at least one matching char"), c)
    else
      match Text.slice? cs 0 length with
      | none => (.ok "", c.fault)
      | some taken => (.ok (String.ofList taken), c.advance length)

/-- The match of a pattern in what remains. The cursor moves to the end of the match. -/
def regex (source : String) (find : Regex.Finder) : Parser ByteCursor String :=
  withRest fun cs c =>
    match find cs with
    | some ⟨start, stop⟩ =>
      (.ok (String.ofList ((cs.take stop).drop start)), c.advance (Text.width (cs.take stop)))
    | none => (.error (mismatch cs c ("expected a match of /" ++ source ++ "/")), c)

/-- The parsers that only text has. -/
def prim : {α : Type} → TextPrim α → Parser ByteCursor α
  | _, .string target => string target
  | _, .takeWhile p nonempty => takeWhile p nonempty
  | _, .regex source find => regex source find
  | _, .position => fun c => some ⟨.ok (Position.locate c.text c.offset), c⟩
  | _, .remaining => withRest fun cs c => (.ok (String.ofList cs), c)
  | _, .input => fun c => some ⟨.ok (String.ofList c.text), c⟩

/-- The value of a run that stopped at the end of the text. A verdict moves nothing and records no
fault: if what remains cannot be cut off, the failure says that nothing does, which no other one
says. -/
def ended {α : Type} (stop : ByteCursor) (v : α) : Except ParseError α :=
  match stop.rest? with
  | none => .error (.unparsed stop.offset "")
  | some [] => .ok v
  | some cs => .error (.unparsed stop.offset (String.ofList cs))

/-- The verdict on a run from `start` to `stop`. -/
def judge : {α β : Type} → TextScope α β → (start : ByteCursor) → α → (stop : ByteCursor) →
    Except ParseError β
  | _, _, .consumed, start, _, stop =>
    .ok (((Text.slice? stop.text start.offset stop.offset).map String.ofList).getD "")
  | _, _, .location f, start, v, stop => .ok (f start.offset stop.offset v)
  | _, _, .finish, _, v, stop => stop.ended v

instance : Interprets .text ByteCursor where
  prim := prim
  scope := judge

/-! ## Faults stay -/

theorem faulty_read {c : ByteCursor} (h : c.faulty = true) : c.read.2.faulty = true := by
  unfold read
  split
  · rfl
  · exact h
  · exact h

theorem faulty_unread {c d : ByteCursor} (h : c.faulty = true) (hd : c.unread = some d) :
    d.faulty = true := by
  unfold unread at hd
  split at hd
  · cases hd
    rfl
  · split at hd
    · cases hd
    · split at hd
      · cases hd
        rfl
      · cases hd
        exact h

theorem faulty_advance {c : ByteCursor} (h : c.faulty = true) (n : Nat) :
    (c.advance n).faulty = true := by
  unfold advance
  split
  · rfl
  · exact h

/-- Once something has failed, it has. -/
def course : Course ByteCursor where
  Ahead c d := c.faulty = true → d.faulty = true
  refl _ h := h
  trans h h' hc := h' (h hc)
  read {c d x} h hc := by
    rw [← (Prod.mk.inj (Option.some.inj h)).2]
    exact faulty_read hc
  unread {c d b x} h hb hc := by
    refine faulty_unread ?_ hb
    rw [← (Prod.mk.inj (Option.some.inj h)).2]
    exact faulty_read hc
  restore h hc := h hc
  exhausted {c d b} h hc := by rwa [← (Prod.mk.inj (Option.some.inj h)).2]
  visit _ _ h := h

theorem moves_withRest {α : Type} {f : List Char → ByteCursor → Except ParseError α × ByteCursor}
    (h : ∀ cs c, c.faulty = true → (f cs c).2.faulty = true) : course.Moves (withRest f) := by
  intro c r hr hc
  unfold withRest at hr
  split at hr
  · cases hr
    rfl
  · cases hr
    exact h _ c hc

theorem prim_moves : {α : Type} → (p : TextPrim α) → course.Moves (prim p)
  | _, .string target => moves_withRest fun cs c hc => by
    split
    · exact faulty_advance hc _
    · exact hc
  | _, .takeWhile p nonempty => moves_withRest fun cs c hc => by
    dsimp only
    split
    · exact hc
    · split
      · rfl
      · exact faulty_advance hc _
  | _, .regex source find => moves_withRest fun cs c hc => by
    split
    · exact faulty_advance hc _
    · exact hc
  | _, .position | _, .input => fun c r hr hc => by
    cases hr
    exact hc
  | _, .remaining => moves_withRest fun _ _ hc => hc

/-- A run that ends without a fault has never met one. -/
theorem faulty_of_returns {α : Type} {g : TextGrammar [] α} {c : ByteCursor}
    {r : Reply ByteCursor α} (hr : g.Returns c r) (hc : c.faulty = true) :
    r.cursor.faulty = true :=
  hr.ahead (K := course) prim_moves hc

end ByteCursor
end Descent
