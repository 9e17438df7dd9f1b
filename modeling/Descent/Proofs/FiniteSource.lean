import Descent.Cursor.Buffered
import Descent.Proofs.Supply

/-!
# Finite sources

A source that always answers and gives only so many elements (`Source.AtMost`), be it fused or not:
there may be gaps in it, calls that give nothing although later ones do. A cursor over it is a
`Supply` (`Buffered.supply`), of which as many elements are left as it has not passed.
-/

namespace Descent

namespace Source

variable {s ε : Type} [Source s ε] {a b : s} {x : ε} {k : Nat}

/-- The elements that the first calls give, and the source after them. -/
def pull : (calls : Nat) → s → Option (List ε × s)
  | 0, source => some ([], source)
  | calls + 1, source =>
    match next source with
    | none => none
    | some (x, rest) => (pull calls rest).map fun (xs, rest) => (x.toList ++ xs, rest)

/-- However often it is called, the source answers, and gives at most `k` elements in all. -/
def AtMost (k : Nat) (source : s) : Prop :=
  ∀ calls, ∃ xs rest, pull calls source = some (xs, rest) ∧ xs.length ≤ k

theorem AtMost.answers (h : AtMost k a) : ∃ r, next a = some r := by
  obtain ⟨xs, rest, hp, -⟩ := h 1
  unfold pull at hp
  cases hn : next a with
  | none => simp [hn] at hp
  | some r => exact ⟨r, rfl⟩

theorem AtMost.next {y : Option ε} (h : AtMost k a) (hn : Source.next a = some (y, b))
    (calls : Nat) :
    ∃ xs rest, pull calls b = some (xs, rest) ∧ y.toList.length + xs.length ≤ k := by
  obtain ⟨xs, rest, hp, hk⟩ := h (calls + 1)
  rw [pull, hn] at hp
  obtain ⟨ys, hys, he⟩ := Option.map_eq_some_iff.1 hp
  cases he
  rw [List.length_append] at hk
  exact ⟨ys.1, ys.2, hys, hk⟩

theorem AtMost.empty (h : AtMost k a) (hn : Source.next a = some (none, b)) : AtMost k b := by
  intro calls
  simpa using h.next hn calls

theorem AtMost.given (h : AtMost k a) (hn : Source.next a = some (some x, b)) :
    ∃ j, k = j + 1 ∧ AtMost j b := by
  have h₁ := h.next hn
  simp only [Option.toList_some, List.length_singleton] at h₁
  obtain ⟨xs, -, -, hk⟩ := h₁ 0
  refine ⟨k - 1, by omega, fun calls => ?_⟩
  obtain ⟨xs, rest, hp, hk⟩ := h₁ calls
  exact ⟨xs, rest, hp, by omega⟩

end Source

/-- A script is finite, whether there are gaps in it or not. -/
theorem Script.atMost {ε : Type} (answers : List (Option ε)) :
    Source.AtMost (answers.filterMap id).length (ofList answers) := by
  have h : ∀ (calls : Nat) (answers : List (Option ε)) (made : Nat), ∃ xs rest,
      Source.pull calls (⟨answers, made⟩ : Script ε) = some (xs, rest) ∧
        xs.length ≤ (answers.filterMap id).length := by
    intro calls
    induction calls with
    | zero => exact fun _ _ => ⟨[], _, rfl, Nat.zero_le _⟩
    | succ calls ih =>
      intro answers made
      unfold Source.pull
      cases answers with
      | nil =>
        obtain ⟨xs, rest, hp, hl⟩ := ih [] (made + 1)
        exact ⟨xs, rest, by simp [Source.next, hp], hl⟩
      | cons a answers =>
        obtain ⟨xs, rest, hp, hl⟩ := ih answers (made + 1)
        refine ⟨a.toList ++ xs, rest, by simp [Source.next, hp], ?_⟩
        cases a <;> simpa using hl
  exact fun calls => h calls answers 0

namespace Buffered

variable {s ε : Type} [Source s ε] {c d : Buffered s ε} {k : Nat}

/-- The cursor is inside its buffer, and there will never be more than `k` elements. -/
structure Within (k : Nat) (c : Buffered s ε) : Prop where
  pos : c.pos ≤ c.buffer.size
  source : ∃ j, Source.AtMost j c.source ∧ c.buffer.size + j ≤ k

theorem Within.pos_le (h : c.Within k) : c.pos ≤ k := by
  obtain ⟨hp, j, -, hj⟩ := h
  omega

theorem Within.fetch : ∀ {missing : Nat} {c : Buffered s ε}, c.Within k →
    ∃ filled d, Buffered.fetch missing c = some (filled, d) ∧ d.Within k
  | 0, c, h => ⟨true, c, rfl, h⟩
  | missing + 1, c, h => by
    obtain ⟨hp, j, hs, hj⟩ := h
    obtain ⟨⟨x, source⟩, hn⟩ := hs.answers
    unfold Buffered.fetch
    rw [hn]
    cases x with
    | none => exact ⟨false, _, rfl, hp, j, hs.empty hn, hj⟩
    | some x =>
      obtain ⟨i, rfl, hi⟩ := hs.given hn
      refine Within.fetch ⟨?_, i, hi, ?_⟩
      · simp only [Array.size_push]
        omega
      · simp only [Array.size_push]
        omega

/-- Fetching does not move the cursor. -/
theorem pos_of_fetch : ∀ {missing : Nat} {c d : Buffered s ε} {filled : Bool},
    fetch missing c = some (filled, d) → d.pos = c.pos
  | 0, _, _, _, h => by
    cases h
    rfl
  | missing + 1, c, d, filled, h => by
    unfold fetch at h
    split at h
    · cases h
    · cases h
      rfl
    · exact (pos_of_fetch h).trans rfl

theorem of_fill {filled : Bool} (h : c.fill = some (filled, d)) :
    d.pos = c.pos ∧ ∀ k, c.Within k → d.Within k := by
  refine ⟨pos_of_fetch h, fun k hk => ?_⟩
  obtain ⟨filled', d', hd, hk'⟩ := hk.fetch
  cases h.symm.trans hd
  exact hk'

/-- Where a read leads, whether the source is fused or not. -/
theorem of_read {x : Option ε} (h : c.read = some (x, d)) :
    (d.pos = if x.isSome then c.pos + 1 else c.pos) ∧ ∀ k, c.Within k → d.Within k := by
  unfold read at h
  split at h
  · cases h
  · rename_i filled c' hf
    obtain ⟨hp, hw⟩ := of_fill hf
    split at h
    · cases h
      exact ⟨hp, hw⟩
    · rename_i x hx
      cases h
      obtain ⟨hlt, -⟩ := Array.getElem?_eq_some_iff.1 hx
      exact ⟨congrArg (· + 1) hp, fun k hk => ⟨hlt, (hw k hk).source⟩⟩

/-- Runs on a source do not go back before their beginning. -/
def course : Course (Buffered s ε) where
  Ahead c d := c.pos ≤ d.pos ∧ ∀ k, c.Within k → d.Within k
  refl c := ⟨Nat.le_refl _, fun _ h => h⟩
  trans h h' := ⟨Nat.le_trans h.1 h'.1, fun k hk => h'.2 k (h.2 k hk)⟩
  read {c d x} h := by
    obtain ⟨hp, hw⟩ := of_read h
    refine ⟨?_, hw⟩
    rw [hp]
    split <;> omega
  unread {c d b x} h hb := by
    obtain ⟨hp, hw⟩ := of_read h
    have hp : d.pos = c.pos + 1 := hp
    have hb : d.unread = some b := hb
    rw [unread, if_neg (by omega)] at hb
    cases hb
    refine ⟨by show c.pos ≤ d.pos - 1; omega, fun k hk => ⟨?_, (hw k hk).source⟩⟩
    exact Nat.le_trans (Nat.sub_le _ _) (hw k hk).pos
  restore {c d} h :=
    ⟨Nat.le_refl _, fun k hk => ⟨Nat.le_trans h.1 (h.2 k hk).pos, (h.2 k hk).source⟩⟩
  exhausted {c d b} h := by
    obtain ⟨⟨filled, d'⟩, hf, he⟩ := Option.map_eq_some_iff.1 h
    cases he
    obtain ⟨hp, hw⟩ := of_fill hf
    exact ⟨Nat.le_of_eq hp.symm, hw⟩
  visit _ c := ⟨Nat.le_refl _, fun _ h => h⟩

/-- Of a source with `k` elements, as many are left as have not been passed. -/
def supply (k : Nat) : Supply (Buffered s ε) where
  toCourse := course
  Ready c := c.Within k
  left c := k - c.pos
  ready h hc := h.2 k hc
  left_le h _ := Nat.sub_le_sub_left h.1 k
  left_lt {c d} h hc hne := by
    have hne : d.pos ≠ c.pos := hne
    have hd := (h.2 k hc).pos_le
    have hp := h.1
    omega
  reads {c} hc := by
    obtain ⟨filled, d, hf, -⟩ := hc.fetch
    show ∃ r, c.read = some r
    unfold read
    rw [show c.fill = _ from hf]
    dsimp only
    split <;> exact ⟨_, rfl⟩
  exhausts {c} hc := by
    obtain ⟨filled, d, hf, -⟩ := hc.fetch
    exact ⟨_, Option.map_eq_some_iff.2 ⟨_, hf, rfl⟩⟩

end Buffered

end Descent
