import Descent.Proofs.Longest

/-!
# Tokens

Which of several tokens stands at a place is told by its first character. Sets of characters are
compared at the limits of their ranges (`CharSet.Within`, `CharSet.Apart`). Tokens may have white
space after them (`Lexeme`), and a text that a pattern describes is its longest match there if the
next character cannot go on in it: main theorem `Lexical.longest`.
-/

namespace Descent

namespace Regex

/-! ## Sets -/

namespace CharSet

/-- Each member of `s` is one of `t`. -/
def Within (s t : CharSet) : Prop :=
  ∀ n ∈ 0 :: (s.points ++ t.points), s.ranges.has n = true → t.ranges.has n = true

/-- No member of `s` is one of `t`. -/
def Apart (s t : CharSet) : Prop :=
  ∀ n ∈ 0 :: (s.points ++ t.points), s.ranges.has n = true → t.ranges.has n = false

/-- The members can be seen, and are of the ASCII range. -/
def Visible (s : CharSet) : Prop := ∀ r ∈ s.ranges.toList, 0x21 ≤ r.1 ∧ r.2 ≤ 0x7E

instance (s t : CharSet) : Decidable (s.Within t) := inferInstanceAs (Decidable (∀ _ ∈ _, _))

instance (s t : CharSet) : Decidable (s.Apart t) := inferInstanceAs (Decidable (∀ _ ∈ _, _))

instance (s : CharSet) : Decidable s.Visible := inferInstanceAs (Decidable (∀ _ ∈ _, _))

variable {s t : CharSet} {x : Char}

/-- Two sets have a character as they have the last of their limits that it has reached. -/
theorem exists_limit_has (s t : CharSet) (x : Char) : ∃ n ∈ 0 :: (s.points ++ t.points),
    n ≤ x.toNat ∧ s.has x = s.ranges.has n ∧ t.has x = t.ranges.has n := by
  obtain ⟨n, hn, hle, h⟩ := exists_limit (s.points ++ t.points) x.toNat
  obtain ⟨hs, ht⟩ := List.forall_mem_append.1 h
  exact ⟨n, hn, hle, has_congr hs, has_congr ht⟩

theorem Within.has (h : s.Within t) (hx : s.has x = true) : t.has x = true := by
  obtain ⟨n, hn, -, hs, ht⟩ := exists_limit_has s t x
  rw [ht]
  exact h n hn (hs ▸ hx)

theorem Apart.has_eq (h : s.Apart t) (hx : s.has x = true) : t.has x = false := by
  obtain ⟨n, hn, -, hs, ht⟩ := exists_limit_has s t x
  rw [ht]
  exact h n hn (hs ▸ hx)

/-- Every character but those of the list is in the complement, if no limit is in neither set. -/
theorem has_compl (cs : List Char)
    (hs : s.ranges.toList = cs.map fun y => (y.toNat, y.toNat))
    (hc : ∀ n ∈ 0 :: (s.points ++ s.compl.points), n < 0x110000 →
      s.ranges.has n = false → s.compl.ranges.has n = true)
    (hx : x ∉ cs) : s.compl.has x = true := by
  have hno : s.has x = false := by
    refine Bool.eq_false_iff.2 fun h => hx ?_
    obtain ⟨r, hr, hlo, hhi⟩ := exists_range_of_has h
    rw [hs] at hr
    obtain ⟨y, hy, rfl⟩ := List.mem_map.1 hr
    rwa [Char.toNat_inj.1 (Nat.le_antisymm hhi hlo)]
  have hlt : x.toNat < 0x110000 := x.valid.elim (fun h => Nat.lt_trans h (by decide)) And.right
  obtain ⟨n, hn, hle, hin, hout⟩ := exists_limit_has s s.compl x
  rw [hout]
  exact hc n hn (Nat.lt_of_le_of_lt hle hlt) (hin ▸ hno)

theorem Visible.not_blank (h : s.Visible) (hx : s.has x = true) : Text.isBlank x = false := by
  obtain ⟨r, hr, hlo, hhi⟩ := exists_range_of_has hx
  obtain ⟨hl, hh⟩ := h r hr
  simp only [Text.isBlank, Text.blankRanges, List.any_toArray, List.any_cons, List.any_nil,
    Bool.or_false, Bool.or_eq_false_iff, Bool.and_eq_false_iff, decide_eq_false_iff_not]
  omega

end CharSet
end Regex

namespace TextGrammar

open Regex

variable {set other : CharSet} {t t' u w : List Char} {s : String} {x : Char}

/-! ## First characters -/

/-- If the text begins with anything, it does so with a character of the set. -/
def Starts (set : CharSet) (t : List Char) : Prop := ∀ x ∈ t.head?, set.has x = true

/-- The text does not begin with a character of the set. -/
def Avoids (set : CharSet) (t : List Char) : Prop := ∀ x ∈ t.head?, set.has x = false

/-- The text does not begin with white space. -/
def Fresh (t : List Char) : Prop := ∀ x ∈ t.head?, Text.isBlank x = false

theorem starts_nil (set : CharSet) : Starts set [] := nofun

theorem Starts.of_head? (ht : t.head? = some x) (hx : set.has x = true) : Starts set t := by
  intro y hy
  obtain rfl := Option.some.inj (ht.symm.trans hy)
  exact hx

theorem Starts.mono (h : Starts set t) (hw : set.Within other) : Starts other t :=
  fun x hx => hw.has (h x hx)

theorem Starts.avoids (h : Starts set t) (ha : set.Apart other) : Avoids other t :=
  fun x hx => ha.has_eq (h x hx)

theorem Starts.fresh (h : Starts set t) (hv : set.Visible) : Fresh t :=
  fun x hx => hv.not_blank (h x hx)

theorem Avoids.ne_head (h : Avoids set t) (hx : set.has x = true) : t.head? ≠ some x := by
  intro ht
  rw [h x ht] at hx
  cases hx

/-! ## White space -/

/-- White space, and then `t'`. -/
def Blanks (t t' : List Char) : Prop := ∃ s, (∀ x ∈ s, Text.isBlank x = true) ∧ t = s ++ t'

theorem Blanks.refl (t : List Char) : Blanks t t := ⟨[], nofun, rfl⟩

theorem Blanks.append {s : List Char} (hs : ∀ x ∈ s, Text.isBlank x = true) (h : Blanks t t') :
    Blanks (s ++ t) t' := by
  obtain ⟨u, hu, rfl⟩ := h
  exact ⟨s ++ u, List.forall_mem_append.2 ⟨hs, hu⟩, (List.append_assoc ..).symm⟩

theorem Blanks.dropWhile_eq (h : Blanks t t') (hf : Fresh t') : t.dropWhile Text.isBlank = t' := by
  obtain ⟨s, hs, rfl⟩ := h
  rw [List.dropWhile_append_of_pos hs]
  cases t' with
  | nil => rfl
  | cons x t' => exact List.dropWhile_cons_of_neg (by simp [hf x (by simp)])

theorem Blanks.length_le (h : Blanks t t') : t'.length ≤ t.length := by
  obtain ⟨s, -, rfl⟩ := h
  rw [List.length_append]
  omega

theorem Blanks.avoids (h : Blanks t t') (ht : Avoids set t') (hv : set.Visible) : Avoids set t := by
  obtain ⟨s, hs, rfl⟩ := h
  cases s with
  | nil => exact ht
  | cons y s =>
    intro x hx
    obtain rfl : y = x := Option.some.inj hx
    refine Bool.eq_false_iff.2 fun hy => ?_
    simp [hv.not_blank hy] at hs

/-- The text `s` with white space after it, and then `t'`. -/
def Lexeme (s : String) (t t' : List Char) : Prop := ∃ u, t = s.toList ++ u ∧ Blanks u t'

theorem Lexeme.length_lt (h : Lexeme s t t') (hs : s.toList ≠ []) : t'.length < t.length := by
  obtain ⟨u, rfl, hb⟩ := h
  have hu := hb.length_le
  have hpos := List.length_pos_of_ne_nil hs
  rw [List.length_append]
  omega

theorem Lexeme.starts (h : Lexeme s t t') (hs : s.toList.head? = some x) (hx : set.has x = true) :
    Starts set t := by
  obtain ⟨u, rfl, -⟩ := h
  exact .of_head? (by rw [List.head?_append, hs]; rfl) hx

/-! ## Literals -/

/-- What the pattern describes begins with a character of `first`, and where it could end, it goes
on with one of `more` only. -/
structure Lexical (pat : Pattern) (first more : CharSet) : Prop where
  charted : pat.Charted pat.chart
  nonempty : pat.nullable = false
  needs : pat.Needs [pat] first
  ends : pat.Extends pat.chart more

instance (pat : Pattern) (first more : CharSet) : Decidable (Lexical pat first more) :=
  decidable_of_iff (pat.Charted pat.chart ∧ pat.nullable = false ∧ pat.Needs [pat] first ∧
      pat.Extends pat.chart more)
    ⟨fun ⟨h₁, h₂, h₃, h₄⟩ => ⟨h₁, h₂, h₃, h₄⟩, fun ⟨h₁, h₂, h₃, h₄⟩ => ⟨h₁, h₂, h₃, h₄⟩⟩

/-- What a number may go on with that could also end. -/
def numberMore : CharSet := .unions [.range '0' '9', .ofList ['.', 'e', 'E']]

namespace Lexical

variable {pat : Pattern} {first more : CharSet}

theorem ne_nil (h : Lexical pat first more) (hw : pat.Matches w) : w ≠ [] := by
  rintro rfl
  have hn := (Pattern.matches_nil pat).1 hw
  simp [h.nonempty] at hn

theorem starts (h : Lexical pat first more) (hw : pat.Matches w) (t : List Char) :
    Starts first (w ++ t) := by
  obtain ⟨x, v, rfl⟩ := List.exists_cons_of_ne_nil (h.ne_nil hw)
  exact .of_head? rfl (h.charted.head_mem h.needs hw)

/-- A literal is all that is matched, if what follows cannot go on in it. -/
theorem longest (h : Lexical pat first more) (hw : pat.Matches w) (ht : Avoids more t) :
    Longest pat.Matches (w ++ t) w :=
  h.charted.longest_append h.ends hw ht

/-- Nothing is matched where no literal can begin. -/
theorem not_matches (h : Lexical pat first more) (ht : Avoids first t) (hw : w <+: t) :
    ¬ pat.Matches w := by
  intro hm
  obtain ⟨u, rfl⟩ := hw
  obtain ⟨x, v, rfl⟩ := List.exists_cons_of_ne_nil (h.ne_nil hm)
  exact ht.ne_head (h.starts hm u x rfl) rfl

end Lexical
end TextGrammar
end Descent
