import Descent.Proofs.Contents
import Descent.Proofs.Correspondence
import Descent.Proofs.TextPlaces

/-!
# Texts as sources

A grammar over elements runs on a text in two ways: on the text itself, where offsets count bytes,
and on a source of its characters, where they count elements. Main theorem `text_iff_source`: the
two runs do the same, up to `charIndex`, the number of characters before a byte offset.
-/

namespace Descent

/-- The number of characters in the first `offset` bytes of `text`. -/
def charIndex (text : List Char) (offset : Nat) : Nat :=
  ((Text.takeBytes? offset text).getD []).length

namespace TextCursor

theorem Sound.charIndex {c : TextCursor} (h : c.Sound) :
    charIndex c.text c.offset = c.before.length := by
  have ht := Text.takeBytes?_append c.before.reverse c.after
  rw [Text.width_reverse, ← h.offset] at ht
  rw [Descent.charIndex, text, ht, Option.getD_some, List.length_reverse]

/-- The element at the place. -/
theorem getElem?_text (c : TextCursor) : c.text[c.before.length]? = c.after.head? := by
  rw [text, List.getElem?_append_right (by simp)]
  simp [List.head?_eq_getElem?]

end TextCursor

variable {s : Type} [Source s Char]

/-- The same place in the text `cs` and in a source of its characters. -/
structure SamePlace (cs : List Char) (c : TextCursor) (d : Buffered s Char) : Prop where
  sound : c.Sound
  text : c.text = cs
  pos : d.pos = c.before.length
  holds : d.Holds fun i => some cs[i]?

namespace SamePlace

variable {cs : List Char} {c c' : TextCursor} {d d' : Buffered s Char}

theorem element (h : SamePlace cs c d) : cs[d.pos]? = c.after.head? := by
  rw [← h.text, h.pos, c.getElem?_text]

theorem offset (h : SamePlace cs c d) : d.pos = charIndex cs c.offset := by
  rw [h.pos, ← h.text, h.sound.charIndex]

theorem read (h : SamePlace cs c d) :
    ∃ d', Buffered.read d = some (c.read.1, d') ∧ SamePlace cs c.read.2 d' := by
  obtain ⟨d', hd, hh, hp⟩ := h.holds.read
  rw [h.element] at hd hp
  rw [TextCursor.read_eq_advance]
  refine ⟨d', hd, h.sound.advance 1, ?_, ?_, hh⟩
  · rw [TextCursor.text_advance, h.text]
  · rw [hp, h.pos]
    cases hc : c.after <;> simp [TextCursor.advance, hc]

/-- Going back after reading an element. -/
theorem unread (h : SamePlace cs c d) {x : Char} (hc : c.read = (some x, c'))
    (hd : Buffered.read d = some (some x, d')) :
    c'.unread = some c ∧ ∃ d'', d'.unread = some d'' ∧ SamePlace cs c d'' := by
  obtain ⟨d₁, hd₁, h'⟩ := h.read
  rw [hc] at hd₁ h'
  cases hd.symm.trans hd₁
  obtain ⟨rfl, hu⟩ := TextCursor.of_read_eq_some hc
  have hne : c.after ≠ [] := by
    intro hnil
    simp [TextCursor.read, hnil] at hc
  have hp : d'.pos = d.pos + 1 := by
    have := List.length_pos_of_ne_nil hne
    rw [h'.pos, h.pos]
    simp [TextCursor.advance]
    omega
  refine ⟨hu, { d' with pos := d.pos }, ?_, h.sound, h.text, h.pos, h'.holds.withPos _⟩
  simp [Buffered.unread, hp]

/-- Offsets tell places in one text apart. -/
theorem apart (h : SamePlace cs c d) (h' : SamePlace cs c' d') (hp : d'.pos = d.pos) :
    c'.offset = c.offset := by
  have ht : c'.before.reverse ++ c'.after = c.before.reverse ++ c.after := h'.text.trans h.text.symm
  have hl : c'.before.reverse.length = c.before.reverse.length := by
    rw [List.length_reverse, List.length_reverse, ← h'.pos, ← h.pos, hp]
  rw [h'.sound.offset, h.sound.offset, List.reverse_injective (List.append_inj ht hl).1]

theorem exhausted (h : SamePlace cs c d) :
    ∃ d', d.fill = some (!c.after.isEmpty, d') ∧ SamePlace cs c d' := by
  obtain ⟨d', hd, hh, hp, -⟩ := h.holds.fill
  rw [h.element] at hd
  have he : c.after.head?.isSome = !c.after.isEmpty := by cases c.after <;> rfl
  rw [he] at hd
  exact ⟨d', hd, h.sound, h.text, hp.trans h.pos, hh⟩

/-- The places of a text and of a source correspond. -/
def correspondence (s : Type) [Source s Char] (cs : List Char) :
    Correspondence TextCursor (Buffered s Char) where
  Rel := SamePlace cs
  relocate := charIndex cs
  offset h := h.offset
  apart h h' := h.apart h'
  read {c d} h := by
    obtain ⟨d', hd, h'⟩ := h.read
    rw [show Cursor.read d = _ from hd]
    exact .some ⟨rfl, h'⟩
  unread {c d x c' d'} h hc hd := by
    obtain ⟨hu, d'', hu', h'⟩ := h.unread (Option.some.inj hc) hd
    rw [show Cursor.unread c' = _ from hu, show Cursor.unread d' = _ from hu']
    exact .some h'
  restore h h' := ⟨h.sound, h.text, h.pos, h'.holds.withPos _⟩
  exhausted {c d} h := by
    obtain ⟨d', hd, h'⟩ := h.exhausted
    have he : Cursor.exhausted d = some (c.after.isEmpty, d') := by
      show d.fill.map _ = _
      rw [hd]
      simp
    rw [he]
    exact .some ⟨rfl, h'⟩
  visit _ h := h

/-- The start of a text and the start of a source of its characters. -/
theorem start {source : s} (h : Source.Yields cs source) :
    SamePlace cs (TextCursor.ofText cs) (Buffered.ofSource source : Buffered s Char) :=
  ⟨TextCursor.sound_ofText cs, rfl, rfl, fun i => h.nth i, h.fused⟩

end SamePlace

/-- The run on a text and the run on a source of its characters return together: with the same
value or the same failure up to `charIndex`, and at offsets that differ in the same way. -/
theorem text_iff_source {cs : List Char} {source : s} (h : Source.Yields cs source) {α : Type}
    (g : Grammar Char .plain [] α) :
    (∀ r, g.Returns (TextCursor.ofText cs) r →
      ∃ r', g.Returns (Buffered.ofSource source : Buffered s Char) r' ∧
        r'.result = r.result.mapError (ParseError.relocate (charIndex cs)) ∧
        r'.cursor.pos = charIndex cs r.cursor.offset) ∧
    (∀ r', g.Returns (Buffered.ofSource source : Buffered s Char) r' →
      ∃ r, g.Returns (TextCursor.ofText cs) r ∧
        r'.result = r.result.mapError (ParseError.relocate (charIndex cs)) ∧
        r'.cursor.pos = charIndex cs r.cursor.offset) := by
  have hs : (SamePlace.correspondence s cs).Rel _ _ := SamePlace.start h
  constructor
  · intro r hr
    obtain ⟨r', hr', he, hc⟩ := Correspondence.returns_right hs hr
    exact ⟨r', hr', he, SamePlace.offset hc⟩
  · intro r' hr'
    obtain ⟨r, hr, he, hc⟩ := Correspondence.returns_left hs hr'
    exact ⟨r, hr, he, SamePlace.offset hc⟩

/-- After a character of two bytes: a failure at offset three of the text and two of the source. -/
theorem text_iff_source_two_bytes :
    Source.Yields ['é', 'a'] (Script.ofList [some 'é', some 'a']) ∧
      ∃ r',
        (.right .any (.attempt (.right .any (.fail "no"))) : Grammar Char .plain [] Unit).Returns
          (Buffered.ofSource (Script.ofList [some 'é', some 'a']) : Buffered _ Char) r' ∧
        r'.result = .error (.failure 2 "no") ∧ r'.cursor.pos = 1 := by
  have hs := Script.yields ['é', 'a']
  have ht :
      (.right .any (.attempt (.right .any (.fail "no"))) : Grammar Char .plain [] Unit).Returns
      (TextCursor.ofText ['é', 'a']) ⟨.error (.failure 3 "no"), ⟨['é'], ['a'], 2, 1⟩⟩ := ⟨0, rfl⟩
  obtain ⟨r', hr', he, hc⟩ := (text_iff_source hs _).1 _ ht
  exact ⟨hs, r', hr', he, hc⟩

end Descent
