import Descent.Proofs.ByteCursor
import Descent.Proofs.Course

/-!
# Places in a text

What a text cursor keeps whatever runs on it: its text, and that its offset and its line are the
bytes and the lines before its place (`Sound`). Runs only go forward (`lockstep`), and they do what
the same runs do on a `ByteCursor`, whose cuts and subtractions therefore never fail.

Main theorem `run_keeps_place`.
-/

namespace Descent.TextCursor

/-- The counts are those of the text before the place. -/
structure Sound (c : TextCursor) : Prop where
  offset : c.offset = Text.width c.before
  line : c.line = Text.breaks c.before + 1

theorem sound_ofText (text : List Char) : (ofText text).Sound := ⟨rfl, rfl⟩

/-! ## Forward -/

theorem advance_advance (c : TextCursor) (j k : Nat) :
    (c.advance j).advance k = c.advance (j + k) := by
  simp [advance, List.take_add, Nat.add_assoc]

theorem read_eq_advance (c : TextCursor) : c.read = (c.after.head?, c.advance 1) := by
  obtain ⟨before, after, offset, line⟩ := c
  cases after with
  | nil => rfl
  | cons x rest => by_cases hx : x = '\n' <;> simp [read, advance, hx]

/-- Reading a character goes over one, and going back leads where it was read. -/
theorem of_read_eq_some {c d : TextCursor} {x : Char} (h : c.read = (some x, d)) :
    d = c.advance 1 ∧ d.unread = some c := by
  have hafter : c.after ≠ [] := by
    intro hnil
    simp [read, hnil] at h
  have hu := unread_read c hafter
  rw [h] at hu
  rw [read_eq_advance] at h
  exact ⟨(Prod.mk.inj h).2.symm, hu⟩

theorem offset_of_read {c d : TextCursor} {x : Char} (h : c.read = (some x, d)) :
    d.offset = c.offset + x.utf8Size := by
  unfold read at h
  split at h
  · cases h
  · cases h
    rfl

theorem offset_le_advance (c : TextCursor) (k : Nat) : c.offset ≤ (c.advance k).offset :=
  Nat.le_add_right _ _

/-- Runs on a text go over characters. -/
def course : Course TextCursor where
  Ahead c d := ∃ k, d = c.advance k
  refl c := ⟨0, rfl⟩
  trans := by
    rintro c _ _ ⟨j, rfl⟩ ⟨k, rfl⟩
    exact ⟨j + k, advance_advance c j k⟩
  read {c d x} h := by
    have h := (read_eq_advance c).symm.trans (Option.some.inj h)
    exact ⟨1, (Prod.mk.inj h).2.symm⟩
  unread {c d b x} h hb := by
    have hu := (of_read_eq_some (Option.some.inj h)).2
    exact ⟨0, Option.some.inj (hb.symm.trans hu)⟩
  restore _ := ⟨0, rfl⟩
  exhausted {c d b} h := ⟨0, (Prod.mk.inj (Option.some.inj h)).2.symm⟩
  visit _ c := ⟨0, rfl⟩

theorem Sound.advance {c : TextCursor} (h : c.Sound) (k : Nat) : (c.advance k).Sound where
  offset := by simp [TextCursor.advance, h.offset, Nat.add_comm]
  line := by
    simp only [TextCursor.advance, h.line, Text.breaks_append, Text.breaks_reverse]
    omega

theorem Sound.unread {c d : TextCursor} (h : c.Sound) (hd : c.unread = some d) : d.Sound := by
  obtain ⟨before, after, offset, line⟩ := c
  obtain ⟨ho, hl⟩ := h
  dsimp only at ho hl
  subst ho hl
  cases before with
  | nil => cases hd
  | cons x rest =>
    cases hd
    constructor
    · simp
    · by_cases hx : x = '\n' <;> simp [hx, Nat.add_comm]

theorem Sound.offset_le_width {c : TextCursor} (h : c.Sound) : c.offset ≤ Text.width c.text := by
  simp [h.offset, text]

/-! ## The same place by bytes -/

/-- The place as a number of bytes. -/
def toBytes (c : TextCursor) : ByteCursor := ⟨c.text, c.offset, c.line, false⟩

theorem Sound.slice_after {c : TextCursor} (h : c.Sound) (k : Nat) :
    Text.slice? c.text c.offset (c.offset + Text.width (c.after.take k)) =
      some (c.after.take k) := by
  have hs := Text.slice?_append c.before.reverse (c.after.take k) (c.after.drop k)
  rw [List.append_assoc, List.take_append_drop] at hs
  simpa [text, h.offset] using hs

theorem Sound.slice_before {c : TextCursor} (h : c.Sound) :
    Text.slice? c.text 0 c.offset = some c.before.reverse := by
  have hs := Text.slice?_append [] c.before.reverse c.after
  simpa [text, h.offset] using hs

theorem Sound.rest {c : TextCursor} (h : c.Sound) : c.toBytes.rest? = some c.after := by
  have hs := h.slice_after c.after.length
  rw [List.take_length, h.offset] at hs
  simpa [ByteCursor.rest?, toBytes, text, h.offset] using hs

theorem Sound.exhausted_toBytes {c : TextCursor} (h : c.Sound) :
    (c.offset == Text.width c.text) = c.after.isEmpty := by
  cases hc : c.after <;> simp [text, hc, h.offset, Nat.ne_of_gt (Char.utf8Size_pos _)]

theorem Sound.read_toBytes {c : TextCursor} (h : c.Sound) :
    c.toBytes.read = (c.read.1, c.read.2.toBytes) := by
  have hr := h.rest
  unfold ByteCursor.read
  rw [hr]
  obtain ⟨before, after, offset, line⟩ := c
  cases after with
  | nil => rfl
  | cons x rest => simp [read, toBytes, text]

theorem Sound.unread_toBytes {c : TextCursor} (h : c.Sound) :
    c.toBytes.unread = c.unread.map toBytes := by
  have hb := h.slice_before
  unfold ByteCursor.unread
  rw [show Text.slice? c.toBytes.text 0 c.toBytes.offset = _ from hb]
  obtain ⟨before, after, offset, line⟩ := c
  obtain ⟨ho, hl⟩ := h
  dsimp only at ho hl
  subst ho hl
  cases before with
  | nil => rfl
  | cons x rest =>
    -- the line is counted from one, so that the line feeds can all be taken off it
    have hn : ¬ x.utf8Size + Text.width rest < x.utf8Size := Nat.not_lt.2 (Nat.le_add_right _ _)
    simp only [List.getLast?_reverse, List.head?_cons, toBytes, Text.width_cons, hn]
    by_cases hx : x = '\n' <;> simp [TextCursor.unread, toBytes, text, hx]

theorem Sound.advance_toBytes {c : TextCursor} (h : c.Sound) (k : Nat) :
    c.toBytes.advance (Text.width (c.after.take k)) = (c.advance k).toBytes := by
  have hs := h.slice_after k
  unfold ByteCursor.advance
  rw [show Text.slice? c.toBytes.text c.toBytes.offset (c.toBytes.offset + _) = _ from hs]
  unfold toBytes
  rw [text_advance]
  rfl

/-- A run on a text and the run by bytes: in step, without a fault, and never backwards. -/
def lockstep : Lockstep TextCursor ByteCursor where
  Reach c d c' d' := c.Sound ∧ d = c.toBytes ∧ d' = c'.toBytes ∧ ∃ k, c' = c.advance k
  Fault _ _ e f := e = f
  here := by
    rintro c d c' d' ⟨hc, -, rfl, k, rfl⟩
    exact ⟨hc.advance k, rfl, rfl, 0, rfl⟩
  trans := by
    rintro c d c₁ d₁ c₂ d₂ ⟨hc, rfl, -, j, rfl⟩ ⟨-, -, rfl, k, rfl⟩
    exact ⟨hc, rfl, rfl, j + k, advance_advance c j k⟩
  offset := by
    rintro c d c' d' ⟨-, rfl, rfl, -⟩
    rfl
  read := by
    rintro c d ⟨hc, rfl, -⟩
    refine .some ?_
    rw [hc.read_toBytes, read_eq_advance]
    exact ⟨rfl, hc, rfl, rfl, 1, rfl⟩
  unread := by
    rintro c d x c' d' ⟨hc, rfl, -⟩ hr hr'
    have hr := Option.some.inj hr
    have hd' := hc.read_toBytes.symm.trans (Option.some.inj hr')
    rw [hr] at hd'
    obtain ⟨rfl, hu⟩ := of_read_eq_some hr
    have hu' := (hc.advance 1).unread_toBytes
    rw [hu] at hu'
    rw [← (Prod.mk.inj hd').2, show Cursor.unread (c.advance 1) = _ from hu,
      show Cursor.unread (c.advance 1).toBytes = _ from hu']
    exact .some ⟨hc, rfl, rfl, 0, rfl⟩
  restore := by
    rintro c d c' d' ⟨hc, rfl, rfl, k, rfl⟩
    exact ⟨hc, rfl, by simp [Cursor.restore, toBytes], 0, rfl⟩
  exhausted := by
    rintro c d ⟨hc, rfl, -⟩
    exact .some ⟨hc.exhausted_toBytes.symm, hc, rfl, rfl, 0, rfl⟩
  visit _ h := h
  later _ h := h
  endOfInput := by
    rintro c d c' d' ⟨hc, rfl, -⟩ hr hr'
    have h := hc.read_toBytes.symm.trans (Option.some.inj hr')
    rw [Option.some.inj hr] at h
    rw [← (Prod.mk.inj h).2]
    rfl
  predicate := by
    rintro c d x c' d' _ ⟨-, rfl, -⟩ - -
    rfl
  nothingToUnread := by
    rintro c d x c' d' ⟨hc, rfl, -⟩ hr - hu -
    cases hu.symm.trans (of_read_eq_some (Option.some.inj hr)).2
  unparsed := by
    rintro c d x c' d' c'' d'' ⟨-, rfl, -⟩ he he' - -
    obtain rfl := (Prod.mk.inj (Option.some.inj he)).2
    obtain rfl := (Prod.mk.inj (Option.some.inj he')).2
    rfl
  failure := by
    rintro c d _ ⟨-, rfl, -⟩
    rfl
  transform := by
    rintro c d _ ⟨-, rfl, -⟩
    rfl
  alternatives := by
    rintro c d e e' f f' ⟨-, rfl, -⟩ rfl rfl
    rfl
  expected := by
    rintro c d es es' label ⟨-, rfl, -⟩ hs
    rw [List.forall₂_eq_eq_eq] at hs
    rw [hs]
    rfl
  named _ h := by rw [h]

/-! ## What only text has -/

/-- A parser that looks ahead and then goes over some of what it has seen, if anything. -/
theorem agree_withRest {α : Type} {p : Parser TextCursor α}
    {f : List Char → ByteCursor → Except ParseError α × ByteCursor}
    (h : ∀ c : TextCursor, c.Sound → ∃ result k, p c = some ⟨result, c.advance k⟩ ∧
      f c.after c.toBytes = (result, (c.advance k).toBytes)) :
    lockstep.Agree p (ByteCursor.withRest f) := by
  rintro c d ⟨hc, rfl, -⟩
  obtain ⟨result, k, hp, hf⟩ := h c hc
  have hb : ByteCursor.withRest f c.toBytes = some ⟨result, (c.advance k).toBytes⟩ := by
    unfold ByteCursor.withRest
    rw [hc.rest]
    simp only [hf]
  rw [hp, hb]
  cases result with
  | ok v => exact .ok ⟨hc, rfl, rfl, k, rfl⟩
  | error e => exact .error rfl ⟨hc, rfl, rfl, k, rfl⟩

theorem agree_string (target : String) :
    lockstep.Agree (Parser.string target) (ByteCursor.string target) := by
  refine agree_withRest fun c hc => ?_
  unfold Parser.string
  by_cases h : target.toList.isPrefixOf c.after
  · have ht := List.prefix_iff_eq_take.1 (List.isPrefixOf_iff_prefix.1 h)
    have ha := hc.advance_toBytes target.toList.length
    rw [← ht] at ha
    rw [if_pos h, if_pos h, ha]
    exact ⟨_, _, rfl, rfl⟩
  · rw [if_neg h, if_neg h]
    exact ⟨_, 0, rfl, rfl⟩

theorem agree_takeWhile (p : Char → Bool) (nonempty : Bool) :
    lockstep.Agree (Parser.takeWhile p nonempty) (ByteCursor.takeWhile p nonempty) := by
  refine agree_withRest fun c hc => ?_
  have he : (Text.width (c.after.takeWhile p) == 0) = (c.after.takeWhile p).isEmpty := by
    cases c.after.takeWhile p <;> simp [Nat.ne_of_gt (Char.utf8Size_pos _)]
  unfold Parser.takeWhile
  simp only [he]
  by_cases h : (c.after.takeWhile p).isEmpty && nonempty
  · rw [if_pos h, if_pos h]
    exact ⟨_, 0, rfl, rfl⟩
  · have ht := List.prefix_iff_eq_take.1 (List.takeWhile_prefix p (l := c.after))
    have ha := hc.advance_toBytes (c.after.takeWhile p).length
    have hs := Text.slice?_append [] (c.after.takeWhile p) (c.after.dropWhile p)
    rw [← ht] at ha
    rw [List.nil_append, List.takeWhile_append_dropWhile] at hs
    rw [if_neg h, if_neg h]
    refine ⟨_, _, rfl, ?_⟩
    rw [show Text.slice? c.after 0 (Text.width (c.after.takeWhile p)) = _ from hs, ← ha]

theorem agree_regex (source : String) (find : Regex.Finder) :
    lockstep.Agree (Parser.regex source find) (ByteCursor.regex source find) := by
  refine agree_withRest fun c hc => ?_
  unfold Parser.regex
  match find c.after with
  | some ⟨start, stop⟩ => exact ⟨_, stop, rfl, by rw [← hc.advance_toBytes stop]⟩
  | none => exact ⟨_, 0, rfl, rfl⟩

theorem respects_text : lockstep.Respects .text where
  prim
    | .string target => agree_string target
    | .takeWhile p nonempty => agree_takeWhile p nonempty
    | .regex source find => agree_regex source find
    | .position | .input => by
      rintro c d ⟨hc, rfl, -⟩
      exact .ok ⟨hc, rfl, rfl, 0, rfl⟩
    | .remaining => agree_withRest fun c _ => ⟨_, 0, rfl, rfl⟩
  scope s v := by
    rintro c d c' d' ⟨hc, rfl, rfl, k, rfl⟩
    cases s with
    | consumed => exact .ok
    | location f => exact .ok
    | finish =>
      show lockstep.Verdicts _ _ _ ((c.advance k).toBytes.ended v)
      unfold ByteCursor.ended
      rw [(hc.advance k).rest]
      show lockstep.Verdicts _ _
        (if (c.advance k).after.isEmpty then .ok v else .error (.unparsed _ (remaining _))) _
      unfold remaining
      cases (c.advance k).after with
      | nil => exact .ok
      | cons x rest => exact .error rfl

/-! ## Runs -/

/-- From a sound place, a run does what it does by bytes, and ends further on. -/
theorem Sound.run {c : TextCursor} (h : c.Sound) {α : Type} {g : TextGrammar [] α}
    {r : Reply TextCursor α} (hr : g.Returns c r) :
    g.Returns c.toBytes ⟨r.result, r.cursor.toBytes⟩ ∧ ∃ k, r.cursor = c.advance k := by
  have h₀ : lockstep.Reach c c.toBytes c c.toBytes := ⟨h, rfl, rfl, 0, rfl⟩
  obtain ⟨r', hd, ha⟩ := hr.agree respects_text h₀
  cases ha with
  | ok h' =>
    obtain ⟨-, -, rfl, hk⟩ := h'
    exact ⟨hd, hk⟩
  | error he h' =>
    obtain ⟨-, -, rfl, hk⟩ := h'
    cases he
    exact ⟨hd, hk⟩

theorem sound_of_reachable {text : List Char} {c : TextCursor}
    (h : Reachable .text (ofText text) c) : c.Sound ∧ c.text = text := by
  induction h with
  | start => exact ⟨sound_ofText text, rfl⟩
  | @read c d x _ hd ih =>
    have hd := (read_eq_advance c).symm.trans (Option.some.inj hd)
    rw [← (Prod.mk.inj hd).2, text_advance]
    exact ⟨ih.1.advance 1, ih.2⟩
  | unread _ hd ih => exact ⟨ih.1.unread hd, (text_unread hd).trans ih.2⟩
  | restore _ _ _ ih => exact ih
  | exhausted _ hd ih => rwa [← (Prod.mk.inj (Option.some.inj hd)).2]
  | visit _ _ ih => exact ih
  | run _ hr ih =>
    obtain ⟨k, hk⟩ := (ih.1.run hr).2
    rw [hk, text_advance]
    exact ⟨ih.1.advance k, ih.2⟩

/-- Wherever a text grammar is run, and whether it succeeds or fails: the text is unchanged, the
offset is a boundary that is not before the start and not past the end, and the line is the number
of line feeds before it and one. The run by bytes is the same, and nothing in it fails. -/
theorem run_keeps_place {text : List Char} {c : TextCursor}
    (hc : Reachable .text (ofText text) c) {α : Type} (g : TextGrammar [] α)
    {r : Reply TextCursor α} (hr : g.Returns c r) :
    r.cursor.text = text ∧
      (∃ before after, text = before ++ after ∧ r.cursor.offset = Text.width before ∧
        r.cursor.line = 1 + Text.breaks before) ∧
      c.offset ≤ r.cursor.offset ∧ r.cursor.offset ≤ Text.width text ∧
      g.Returns (ByteCursor.mk text c.offset c.line false)
        ⟨r.result, ⟨text, r.cursor.offset, r.cursor.line, false⟩⟩ := by
  obtain ⟨hs, rfl⟩ := sound_of_reachable hc
  obtain ⟨hb, k, hk⟩ := hs.run hr
  have hs' : r.cursor.Sound := by
    rw [hk]
    exact hs.advance k
  have ht : r.cursor.text = c.text := by rw [hk, text_advance]
  refine ⟨ht, ⟨r.cursor.before.reverse, r.cursor.after, ht.symm, ?_, ?_⟩, ?_, ?_, ?_⟩
  · rw [Text.width_reverse, hs'.offset]
  · rw [Text.breaks_reverse, hs'.line, Nat.add_comm]
  · rw [hk]
    exact offset_le_advance c k
  · rw [← ht]
    exact hs'.offset_le_width
  · unfold toBytes at hb
    rwa [ht] at hb

/-- A run that reads past a line feed, fails there, and has the second of its steps undone. -/
theorem attempt_keeps_place :
    Reachable .text (ofText ['é', '\n', 'a']) (ofText ['é', '\n', 'a']) ∧
      (.right .any (.attempt (.right .any (.fail "no"))) : TextGrammar [] Unit).Returns
        (ofText ['é', '\n', 'a']) ⟨.error (.failure 3 "no"), ⟨['é'], ['\n', 'a'], 2, 1⟩⟩ ∧
      (∃ before after, ['é', '\n', 'a'] = before ++ after ∧ 2 = Text.width before ∧
        1 = 1 + Text.breaks before) ∧
      (.right .any (.attempt (.right .any (.fail "no"))) : TextGrammar [] Unit).Returns
        (ByteCursor.mk ['é', '\n', 'a'] 0 1 false)
        ⟨.error (.failure 3 "no"), ⟨['é', '\n', 'a'], 2, 1, false⟩⟩ := by
  have hr : (.right .any (.attempt (.right .any (.fail "no"))) : TextGrammar [] Unit).Returns
      (ofText ['é', '\n', 'a']) ⟨.error (.failure 3 "no"), ⟨['é'], ['\n', 'a'], 2, 1⟩⟩ := ⟨0, rfl⟩
  have h := run_keeps_place .start _ hr
  exact ⟨.start, hr, h.2.1, h.2.2.2.2⟩

end Descent.TextCursor
