import Descent.Proofs.TextPlaces

/-!
# Positions: `Position::locate` / `Position::advance`

Walking a text from its start, `Position.locate` stops at the first boundary that is not before the
offset (`Text.FirstBoundary`), and what it has counted on the way is told by the text before that
boundary (`Position.Counts`). In a text of less than 2³² bytes the counts fit into words of 32 bits
wherever the walk stops (`Position.Words`), and a cursor that keeps its line as it moves agrees with
the walk.

Main theorem `Position.locate_exact`.
-/

namespace Descent

namespace Text

/-- Before a line begins there is nothing, or the line feed of the line before it. -/
def LineStart (earlier : List Char) : Prop := earlier = [] ∨ earlier.getLast? = some '\n'

/-- `front` is the part of the text before its first boundary that is not before the offset, or all
of the text if there is none. -/
structure FirstBoundary (text : List Char) (offset : Nat) (front : List Char) : Prop where
  boundary : front <+: text
  reaches : offset ≤ width front ∨ front = text
  first {other : List Char} : other <+: text → offset ≤ width other → width front ≤ width other

theorem width_le_of_prefix {as bs : List Char} (h : as <+: bs) : width as ≤ width bs := by
  obtain ⟨cs, rfl⟩ := h
  simp

/-- The width of a first part of a text tells which one it is. -/
theorem prefix_eq_of_width {text as bs : List Char} (ha : as <+: text) (hb : bs <+: text)
    (hw : width as = width bs) : as = bs := by
  obtain ⟨cs, rfl⟩ := ha
  obtain ⟨ds, h⟩ := hb
  exact (append_inj h hw.symm).1.symm

/-- From a boundary on, it is the first one itself. -/
theorem FirstBoundary.eq_of_boundary {text front here : List Char} (hh : here <+: text)
    (h : FirstBoundary text (width here) front) : front = here := by
  have hle := h.first hh (Nat.le_refl _)
  refine prefix_eq_of_width h.boundary hh (Nat.le_antisymm hle ?_)
  rcases h.reaches with hr | rfl
  · exact hr
  · exact width_le_of_prefix hh

end Text

namespace Position

open Text

/-- What there is to count before a boundary: bytes and line feeds, and since the last line feed
bytes and characters. -/
structure Counts (p : Position) (front : List Char) : Prop where
  offset : p.offset = width front
  line : p.line = breaks front
  columns : ∃ earlier line, front = earlier ++ line ∧ LineStart earlier ∧ '\n' ∉ line ∧
    p.col = width line ∧ p.charCol = line.length

theorem counts_start : start.Counts [] :=
  ⟨rfl, rfl, [], [], rfl, .inl rfl, List.not_mem_nil, rfl, rfl⟩

theorem Counts.advance {p : Position} {front : List Char} (h : p.Counts front) (c : Char) :
    (p.advance c).Counts (front ++ [c]) := by
  obtain ⟨ho, hl, earlier, line, hf, hs, hn, hb, hc⟩ := h
  by_cases hx : c = '\n'
  · subst hx
    refine ⟨by simp [Position.advance, ho], by simp [Position.advance, hl], ?_⟩
    exact ⟨front ++ ['\n'], [], (List.append_nil _).symm, .inr List.getLast?_concat,
      List.not_mem_nil, by simp [Position.advance], by simp [Position.advance]⟩
  · refine ⟨by simp [Position.advance, hx, ho], by simp [Position.advance, hx, hl], ?_⟩
    refine ⟨earlier, line ++ [c], by rw [hf, List.append_assoc], hs, ?_, ?_, ?_⟩
    · simp [hn, Ne.symm hx]
    · simp [Position.advance, hx, hb]
    · simp [Position.advance, hx, hc]

/-- The walk goes over the boundaries before the offset and over no other, unless the text ends: by
induction on what lies ahead of it. -/
theorem counts_seek (offset : Nat) : ∀ (rest : List Char) {front : List Char} {p : Position},
    p.Counts front →
    ∃ passed ahead, rest = passed ++ ahead ∧ (seek offset p rest).Counts (front ++ passed) ∧
      (offset ≤ width (front ++ passed) ∨ ahead = []) ∧
      ∀ part, part <+: passed → offset ≤ width (front ++ part) → part = passed
  | [], front, p, h =>
    ⟨[], [], rfl, by rwa [List.append_nil], .inr rfl, fun part hp _ => List.prefix_nil.1 hp⟩
  | c :: cs, front, p, h => by
    by_cases ho : offset ≤ p.offset
    · refine ⟨[], c :: cs, rfl, ?_, .inl ?_, fun part hp _ => List.prefix_nil.1 hp⟩
      · rwa [List.append_nil, seek, if_pos ho]
      · rwa [List.append_nil, ← h.offset]
    · obtain ⟨passed, ahead, rfl, hp, hr, hf⟩ := counts_seek offset cs (h.advance c)
      rw [List.append_assoc] at hp hr
      refine ⟨c :: passed, ahead, rfl, by rwa [seek, if_neg ho], hr, fun part hpart hw => ?_⟩
      cases part with
      | nil =>
        rw [List.append_nil, ← h.offset] at hw
        exact absurd hw ho
      | cons d part =>
        obtain ⟨rfl, hd⟩ := List.cons_prefix_cons.1 hpart
        rw [hf part hd (by rwa [List.append_assoc])]

theorem locate_counts (text : List Char) (offset : Nat) :
    ∃ front, FirstBoundary text offset front ∧ (locate text offset).Counts front := by
  obtain ⟨front, ahead, rfl, hc, hr, hf⟩ := counts_seek offset text counts_start
  refine ⟨front, ⟨List.prefix_append _ _, hr.imp_right ?_, fun {other} ho hw => ?_⟩, hc⟩
  · rintro rfl
    rw [List.append_nil]
  · rcases List.prefix_or_prefix_of_prefix ho (List.prefix_append front ahead) with h | h
    · exact Nat.le_of_eq (congrArg width (hf other h hw).symm)
    · exact width_le_of_prefix h

/-- At a boundary the counts are those of the text before it. -/
theorem locate_boundary (front rest : List Char) :
    (locate (front ++ rest) (width front)).Counts front := by
  obtain ⟨other, hf, hc⟩ := locate_counts (front ++ rest) (width front)
  rwa [hf.eq_of_boundary (List.prefix_append _ _)] at hc

/-! ## Words -/

/-- A position with its counts of lines and columns in words of 32 bits. -/
structure Words where
  offset : Nat
  line : UInt32
  col : UInt32
  charCol : UInt32

def Words.advance (w : Words) (c : Char) : Words :=
  if c = '\n' then ⟨w.offset + c.utf8Size, w.line + 1, 0, 0⟩
  else ⟨w.offset + c.utf8Size, w.line, w.col + .ofNat c.utf8Size, w.charCol + 1⟩

def Words.seek (offset : Nat) : Words → List Char → Words
  | w, [] => w
  | w, c :: cs => if offset ≤ w.offset then w else seek offset (w.advance c) cs

def Words.locate (text : List Char) (offset : Nat) : Words := seek offset ⟨0, 0, 0, 0⟩ text

/-- The words hold the counts. -/
structure Words.Holds (w : Words) (p : Position) : Prop where
  offset : w.offset = p.offset
  line : w.line.toNat = p.line
  col : w.col.toNat = p.col
  charCol : w.charCol.toNat = p.charCol

theorem breaks_le_width (cs : List Char) : breaks cs ≤ width cs := by
  induction cs with
  | nil => simp
  | cons c cs ih =>
    have := c.utf8Size_pos
    rw [breaks_cons, width_cons]
    split <;> omega

theorem length_le_width (cs : List Char) : cs.length ≤ width cs := by
  induction cs with
  | nil => simp
  | cons c cs ih =>
    have := c.utf8Size_pos
    rw [List.length_cons, width_cons]
    omega

theorem Counts.le_width {p : Position} {front : List Char} (h : p.Counts front) :
    p.line ≤ width front ∧ p.col ≤ width front ∧ p.charCol ≤ width front := by
  obtain ⟨-, hl, earlier, line, rfl, -, -, hb, hc⟩ := h
  have hw := length_le_width line
  rw [hl, hb, hc, width_append]
  refine ⟨?_, Nat.le_add_left _ _, by omega⟩
  rw [← width_append]
  exact breaks_le_width _

theorem Words.Holds.advance {w : Words} {p : Position} {front : List Char} {c : Char}
    (h : w.Holds p) (hp : p.Counts front) (hw : width (front ++ [c]) < UInt32.size) :
    (w.advance c).Holds (p.advance c) := by
  -- no count is more than the width up to here, so none overflows
  have hle := (hp.advance c).le_width
  obtain ⟨ho, hl, hb, hc⟩ := h
  unfold Words.advance
  unfold Position.advance at hle ⊢
  by_cases hx : c = '\n'
  · rw [if_pos hx] at hle ⊢
    rw [if_pos hx]
    refine ⟨by rw [ho], ?_, rfl, rfl⟩
    rw [UInt32.toNat_add, hl]
    exact Nat.mod_eq_of_lt (Nat.lt_of_le_of_lt hle.1 hw)
  · rw [if_neg hx] at hle ⊢
    rw [if_neg hx]
    obtain ⟨-, hcol, hchar⟩ := hle
    have hsize : (UInt32.ofNat c.utf8Size).toNat = c.utf8Size :=
      UInt32.toNat_ofNat_of_lt' (Nat.lt_of_le_of_lt c.utf8Size_le_four (by decide))
    refine ⟨by rw [ho], hl, ?_, ?_⟩
    · rw [UInt32.toNat_add, hsize, hb]
      exact Nat.mod_eq_of_lt (Nat.lt_of_le_of_lt hcol hw)
    · rw [UInt32.toNat_add, hc]
      exact Nat.mod_eq_of_lt (Nat.lt_of_le_of_lt hchar hw)

theorem Words.Holds.seek (offset : Nat) : ∀ {rest front : List Char} {w : Words} {p : Position},
    w.Holds p → p.Counts front → width (front ++ rest) < UInt32.size →
    (w.seek offset rest).Holds (p.seek offset rest)
  | [], _, _, _, h, _, _ => h
  | c :: cs, front, w, p, h, hp, hw => by
    rw [Words.seek, Position.seek, h.offset]
    by_cases ho : offset ≤ p.offset
    · rwa [if_pos ho, if_pos ho]
    · rw [if_neg ho, if_neg ho]
      rw [List.append_cons] at hw
      have hle : width (front ++ [c]) ≤ width (front ++ [c] ++ cs) :=
        width_le_of_prefix (List.prefix_append _ _)
      exact (h.advance hp (Nat.lt_of_le_of_lt hle hw)).seek offset (hp.advance c) hw

theorem Words.locate_holds {text : List Char} (h : width text < UInt32.size) (offset : Nat) :
    (Words.locate text offset).Holds (Position.locate text offset) :=
  Words.Holds.seek offset ⟨rfl, rfl, rfl, rfl⟩ counts_start h

end Position

/-! ## Cursors -/

/-- The line that a cursor has kept as it moved is the one found from the start of the text. -/
theorem TextCursor.Sound.position_eq {c : TextCursor} (h : c.Sound) :
    c.position.offset = c.offset ∧ c.position.line + 1 = c.line := by
  have hc : c.position.Counts c.before.reverse := by
    unfold TextCursor.position TextCursor.text
    rw [h.offset, ← Text.width_reverse]
    exact Position.locate_boundary c.before.reverse c.after
  rw [hc.offset, hc.line, Text.width_reverse, Text.breaks_reverse, h.offset, h.line]
  exact ⟨rfl, rfl⟩

/-- The position of an offset has the counts of the text before the first boundary that is not
before the offset, or of all of the text if there is none. Below 2³² bytes they are the same in
words. What a cursor says of its offset and its line is what is found there. -/
theorem Position.locate_exact (text : List Char) :
    (∀ offset, ∃ front, Text.FirstBoundary text offset front ∧
      (Position.locate text offset).Counts front) ∧
    (Text.width text < UInt32.size → ∀ offset,
      (Words.locate text offset).Holds (Position.locate text offset)) ∧
    ∀ c : TextCursor, Reachable .text (TextCursor.ofText text) c →
      c.position.offset = c.offset ∧ c.position.line + 1 = c.line := by
  refine ⟨Position.locate_counts text, fun h => Words.locate_holds h, fun c hc => ?_⟩
  exact (TextCursor.sound_of_reachable hc).1.position_eq

/-- An offset inside a character of three bytes is located after it, and a cursor that has read a
line feed is on the second line. -/
theorem Position.locate_inside :
    Text.width ['é', '\n', '中', 'a'] < UInt32.size ∧
      Reachable .text (TextCursor.ofText ['é', '\n', '中', 'a'])
        (⟨['\n', 'é'], ['中', 'a'], 3, 2⟩ : TextCursor) ∧
      (∃ front, Text.FirstBoundary ['é', '\n', '中', 'a'] 4 front ∧
        (⟨6, 1, 3, 1⟩ : Position).Counts front) ∧
      (Words.locate ['é', '\n', '中', 'a'] 4).Holds ⟨6, 1, 3, 1⟩ ∧
      (TextCursor.mk ['\n', 'é'] ['中', 'a'] 3 2).position.line + 1 = 2 := by
  have h := Position.locate_exact ['é', '\n', '中', 'a']
  have hw : Text.width ['é', '\n', '中', 'a'] < UInt32.size := by decide
  have hc : Reachable .text (TextCursor.ofText ['é', '\n', '中', 'a'])
      (⟨['\n', 'é'], ['中', 'a'], 3, 2⟩ : TextCursor) := (Reachable.start.read rfl).read rfl
  exact ⟨hw, hc, h.1 4, h.2.1 hw 4, (h.2.2 _ hc).2⟩

end Descent
