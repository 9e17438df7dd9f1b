import Descent.Proofs.Calls

/-!
# Lexing machines by bytes

A machine that holds its text whole and knows its places as numbers of bytes: it cuts the text anew
for each read and each token, and looks at a byte of it to go back over a line feed. A cut can fail
inside a character or past the end, a byte can be missing, and a subtraction can fall below zero;
then there is no machine any more.

Main theorem `calls_keep_place`: in whatever order it is called, none of this happens, and the
machine by bytes is where the `Machine` is.
-/

namespace Descent

/-- The byte of a text at an offset. -/
def Text.byte? (cs : List Char) (offset : Nat) : Option UInt8 :=
  (cs.flatMap String.utf8EncodeChar)[offset]?

/-- A machine in the middle of a text, with its places as numbers of bytes. -/
structure ByteMachine where
  text : List Char
  start : Nat
  pos : Nat
  /-- The widths of the steps since `start`, latest first. -/
  widths : List Nat
  line : Nat
  deriving DecidableEq, Repr

namespace ByteMachine

variable {τ : Type}

def ofText (text : List Char) : ByteMachine := ⟨text, 0, 0, [], 1⟩

def read (m : ByteMachine) : Option (Option Char × ByteMachine) :=
  match Text.slice? m.text m.pos (Text.width m.text) with
  | none => none
  | some [] => some (none, { m with widths := 0 :: m.widths })
  | some (c :: _) =>
    some (some c,
      { m with
        pos := m.pos + c.utf8Size
        widths := c.utf8Size :: m.widths
        line := if c = '\n' then m.line + 1 else m.line })

/-- The line before a step of the width that led away from `pos`. -/
def lineBefore? (m : ByteMachine) (width pos : Nat) : Option Nat :=
  if width = 1 then
    match Text.byte? m.text pos with
    | none => none
    | some byte =>
      -- the byte of a line feed
      if byte = 10 then
        if m.line = 0 then none else some (m.line - 1)
      else some m.line
  else some m.line

/-- Undo the latest step that has not been undone. -/
def backup (m : ByteMachine) : Option ByteMachine :=
  match m.widths with
  | [] => some m
  | width :: widths =>
    if m.pos < width then none
    else (m.lineBefore? width (m.pos - width)).map fun line =>
      { m with pos := m.pos - width, widths := widths, line := line }

def peek (m : ByteMachine) : Option (Option Char × ByteMachine) :=
  match m.read with
  | none => none
  | some (c, m) => m.backup.map fun m => (c, m)

def token? (m : ByteMachine) (tag : τ) : Option (Token τ) :=
  if m.pos < m.start then none
  else (Text.slice? m.text m.start m.pos).map fun body =>
    ⟨tag, String.ofList body, m.line, m.start, m.pos - m.start⟩

def close (m : ByteMachine) : ByteMachine := { m with start := m.pos, widths := [] }

def call : Call τ → ByteMachine → Option ByteMachine
  | .read, m => m.read.map Prod.snd
  | .peek, m => m.peek.map Prod.snd
  | .backup, m => m.backup
  | .emit tag, m => (m.token? tag).map fun _ => m.close
  | .dropSpan, m => some m.close

/-- The machine after some calls, of which the latest comes first. -/
def run (text : List Char) : List (Call τ) → Option ByteMachine
  | [] => some (ofText text)
  | call :: earlier => (run text earlier).bind (·.call call)

end ByteMachine

namespace Text

/-- The byte after a first part of a text, if its character has no other. -/
theorem byte?_append (as bs : List Char) {c : Char} (h : c.utf8Size = 1) :
    byte? (as ++ c :: bs) (width as) = some c.val.toUInt8 := by
  have hlen : (as.flatMap String.utf8EncodeChar).length = width as := by
    induction as with
    | nil => rfl
    | cons a as ih => simp [List.flatMap_cons, ih]
  unfold byte?
  rw [List.flatMap_append, List.flatMap_cons, String.utf8EncodeChar_eq_singleton h,
    List.getElem?_append_right (by omega), hlen, Nat.sub_self]
  rfl

/-- Among the characters of one byte the line feed alone has its byte. -/
theorem toUInt8_eq_lineFeed {c : Char} (h : c.utf8Size = 1) : c.val.toUInt8 = 10 ↔ c = '\n' := by
  have hc : c.val.toNat ≤ 127 := Char.utf8Size_eq_one_iff.1 h
  constructor
  · intro he
    have hn : c.val.toNat % 256 = 10 := by
      have hn := congrArg UInt8.toNat he
      rwa [UInt32.toNat_toUInt8] at hn
    have hv : c.val.toNat = 10 := by omega
    exact Char.ext (UInt32.toNat_inj.1 hv)
  · rintro rfl
    rfl

end Text

namespace Machine

variable {τ : Type}

/-- The machine by bytes at the same place. -/
def toBytes (text : List Char) (m : Machine) : ByteMachine :=
  ⟨text, m.start, m.pos, m.widths, m.line⟩

section

variable {m : Machine} {closed pending rest text : List Char} {ends : Nat}

theorem Places.read_toBytes (h : m.Places closed pending rest ends)
    (ht : text = closed ++ pending ++ rest) :
    (m.toBytes text).read = some (m.read.1, m.read.2.toBytes text) := by
  have hs : Text.slice? text m.pos (Text.width text) = some rest := by
    have hs := Text.slice?_append (closed ++ pending) rest []
    rwa [List.append_nil, ← ht, ← h.pos] at hs
  have hr : Text.slice? (m.toBytes text).text (m.toBytes text).pos
      (Text.width (m.toBytes text).text) = some rest := hs
  unfold ByteMachine.read Machine.read
  rw [hr, h.after]
  cases rest with
  | nil => rfl
  | cons c rest => rfl

theorem Places.token_toBytes (h : m.Places closed pending rest ends)
    (ht : text = closed ++ pending ++ rest) (tag : τ) :
    (m.toBytes text).token? tag = some (m.token tag) := by
  have hs : Text.slice? (m.toBytes text).text (m.toBytes text).start (m.toBytes text).pos =
      some pending := by
    have hs := Text.slice?_append closed pending rest
    rwa [← ht, ← h.start, ← h.pos] at hs
  have hle : ¬ (m.toBytes text).pos < (m.toBytes text).start := by
    show ¬ m.pos < m.start
    rw [h.pos, h.start, Text.width_append]
    omega
  unfold ByteMachine.token? Machine.token
  rw [if_neg hle, hs, h.body]
  rfl

/-- Going back over a character looks at its byte if it is the only one, and finds out from it
whether the character was a line feed. -/
theorem Places.lineBefore_toBytes {c : Char} {init : List Char}
    (h : m.Places closed (init ++ [c]) rest 0) (ht : text = closed ++ (init ++ [c]) ++ rest) :
    (m.toBytes text).lineBefore? c.utf8Size (m.pos - c.utf8Size) =
      some (if c = '\n' then m.line - 1 else m.line) := by
  unfold ByteMachine.lineBefore?
  by_cases hw : c.utf8Size = 1
  · have hp : m.pos - c.utf8Size = Text.width (closed ++ init) := by
      simp [h.pos]
      omega
    have hb : Text.byte? (m.toBytes text).text (m.pos - c.utf8Size) = some c.val.toUInt8 := by
      have hb := Text.byte?_append (closed ++ init) rest hw
      rw [hp]
      show Text.byte? text _ = _
      rw [ht]
      simpa using hb
    rw [if_pos hw, hb]
    simp only [Text.toUInt8_eq_lineFeed hw]
    by_cases hc : c = '\n'
    · have hl : ¬ (m.toBytes text).line = 0 := by
        show ¬ m.line = 0
        rw [h.line]
        omega
      rw [if_pos hc, if_pos hc, if_neg hl]
      rfl
    · rw [if_neg hc, if_neg hc]
      rfl
  · have hc : c ≠ '\n' := by
      rintro rfl
      exact hw rfl
    rw [if_neg hw, if_neg hc]
    rfl

theorem Places.backup_toBytes (h : m.Places closed pending rest ends)
    (ht : text = closed ++ pending ++ rest) :
    (m.toBytes text).backup = some (m.backup.toBytes text) := by
  cases ends with
  | succ ends =>
    have hw : m.widths = 0 :: (pending.map Char.utf8Size ++ List.replicate ends 0).reverse :=
      h.widths_end
    rw [backup_of_widths_zero hw]
    unfold ByteMachine.backup
    rw [show (m.toBytes text).widths = _ from hw]
    rfl
  | zero =>
    rcases List.eq_nil_or_concat pending with rfl | ⟨init, c, rfl⟩
    · have hw : m.widths = [] := h.widths_nil
      rw [backup_of_widths_nil hw]
      unfold ByteMachine.backup
      rw [show (m.toBytes text).widths = _ from hw]
    · rw [List.concat_eq_append] at h ht
      have hle : ¬ (m.toBytes text).pos < c.utf8Size := by
        show ¬ m.pos < c.utf8Size
        simp [h.pos]
        omega
      rw [backup_of_widths_pos h.widths_char c.utf8Size_pos h.before_char]
      unfold ByteMachine.backup
      rw [show (m.toBytes text).widths = _ from h.widths_char]
      dsimp only
      rw [if_neg hle, show (m.toBytes text).pos = m.pos from rfl, h.lineBefore_toBytes ht]
      rfl

theorem Cut.backup_toBytes (h : Cut text closed m) :
    (m.toBytes text).backup = some (m.backup.toBytes text) := by
  obtain ⟨pending, rest, ends, ht, h⟩ := h
  exact h.backup_toBytes ht

theorem Cut.call_toBytes (h : Cut text closed m) (call : Call τ) :
    (m.toBytes text).call call = some ((m.call call).toBytes text) := by
  have hread : Cut text closed m.read.2 := h.read
  have hback := h.backup_toBytes
  obtain ⟨pending, rest, ends, ht, h⟩ := h
  have hr := h.read_toBytes ht
  cases call with
  | read =>
    show (m.toBytes text).read.map Prod.snd = _
    rw [hr]
    rfl
  | peek =>
    show (m.toBytes text).peek.map Prod.snd = _
    unfold ByteMachine.peek
    rw [hr]
    dsimp only
    rw [hread.backup_toBytes]
    rfl
  | backup => exact hback
  | emit tag =>
    show ((m.toBytes text).token? tag).map _ = _
    rw [h.token_toBytes ht]
    rfl
  | dropSpan => rfl

end

theorem run_toBytes (text : List Char) :
    ∀ calls : List (Call τ), ByteMachine.run text calls = some ((run text calls).toBytes text)
  | [] => rfl
  | call :: earlier => by
    obtain ⟨closed, h⟩ := cut_run text earlier
    show (ByteMachine.run text earlier).bind _ = _
    rw [run_toBytes text earlier]
    exact h.call_toBytes call

/-- Whatever a machine is called for, and in whatever order: its start and its place are boundaries
of the text in this order; the widths, from the oldest, are those of the characters between the two,
and then a zero for each read at the end of the text; the line is one more than the line feeds
before the place. No cut, subtraction or look at a byte fails on the way. Looking ahead tells the
next character and changes nothing, and a step back undoes the latest read that has not been undone
since a span was closed, if there is one. -/
theorem calls_keep_place (text : List Char) (calls : List (Call τ)) :
    (∃ closed pending rest ends, text = closed ++ pending ++ rest ∧
      (run text calls).Places closed pending rest ends ∧
      (run text calls).peek = (rest.head?, run text calls)) ∧
    (run text calls).start ≤ (run text calls).pos ∧
    (run text calls).pos ≤ Text.width text ∧
    ByteMachine.run text calls =
      some ⟨text, (run text calls).start, (run text calls).pos, (run text calls).widths,
        (run text calls).line⟩ ∧
    (run text calls).backup = (undoable text calls).headD (run text calls) := by
  obtain ⟨closed, pending, rest, ends, ht, h⟩ := cut_run text calls
  refine ⟨⟨closed, pending, rest, ends, ht, h, ?_⟩, ?_, ?_, run_toBytes text calls,
    backup_run text calls⟩
  · rw [peek_eq, h.after]
  · rw [h.start, h.pos, Text.width_append]
    exact Nat.le_add_right _ _
  · rw [h.pos, ht, Text.width_append _ rest]
    exact Nat.le_add_right _ _

end Machine
end Descent
