import Descent.Cursor.Buffered
import Mathlib.Data.Option.Basic

/-!
# What a buffered cursor holds

A buffered cursor stands in a sequence of elements of which it has fetched a first part: element `i`
is `Buffered.element`, and the source may never answer when it is asked for it. Fetching does not
change the sequence of a fused source, and what a read gives is the element at the cursor's place in
it (`Buffered.Holds.read`).
-/

namespace Descent

namespace Source

variable {s ε : Type} [Source s ε]

/-- The element that the source gives after `i` others. The outer `none` is a source that does not
answer, the inner one a source that has nothing to give, this time or an earlier one. -/
def nth (i : Nat) (source : s) : Option (Option ε) :=
  match next source, i with
  | none, _ => none
  | some (none, _), _ => some none
  | some (some x, _), 0 => some (some x)
  | some (some _, rest), i + 1 => nth i rest

section

variable {a b : s} {x : ε}

theorem nth_never (h : next a = none) (i : Nat) : nth i a = none := by
  cases i <;> simp [nth, h]

theorem nth_empty (h : next a = some (none, b)) (i : Nat) : nth i a = some none := by
  cases i <;> simp [nth, h]

theorem nth_zero (h : next a = some (some x, b)) : nth 0 a = some (some x) := by
  unfold nth
  rw [h]

theorem nth_succ (h : next a = some (some x, b)) (i : Nat) : nth (i + 1) a = nth i b := by
  rw [nth.eq_def, h]

end

/-- `b` is the source `a` after some calls. -/
inductive Later : s → s → Prop
  | here {a} : Later a a
  | call {a b c x} : next a = some (x, b) → Later b c → Later a c

/-- A source that has had nothing to give once never has anything again. -/
def Fused (source : s) : Prop :=
  ∀ a b : s, Later source a → next a = some (none, b) → ∃ c : s, next b = some (none, c)

theorem Fused.next {a b : s} {x : Option ε} (h : Fused a) (hx : next a = some (x, b)) : Fused b :=
  fun _ _ hl hn => h _ _ (.call hx hl) hn

theorem Fused.nth_next {a b : s} (h : Fused a) (hn : Source.next a = some (none, b)) (i : Nat) :
    nth i b = some none := by
  obtain ⟨c, hc⟩ := h a b .here hn
  exact nth_empty hc i

/-- The source gives the elements of `xs` and then never anything again. -/
structure Yields (xs : List ε) (source : s) : Prop where
  fused : Fused source
  nth (i : Nat) : nth i source = some xs[i]?

end Source

namespace Script

variable {ε : Type}

/-- What is left of a script without gaps has none. -/
private theorem gapless_of_later {a b : Script ε} (h : Source.Later a b) :
    (∃ xs : List ε, a.answers = xs.map some) → ∃ xs : List ε, b.answers = xs.map some := by
  induction h with
  | here => exact id
  | @call a b _ _ hn _ ih =>
    obtain ⟨answers, calls⟩ := a
    rintro ⟨xs, rfl⟩
    cases xs with
    | nil =>
      cases hn
      exact ih ⟨[], rfl⟩
    | cons x xs =>
      cases hn
      exact ih ⟨xs, rfl⟩

private theorem nth_gapless : ∀ (xs : List ε) (calls i : Nat),
    Source.nth i (⟨xs.map some, calls⟩ : Script ε) = some xs[i]?
  | [], _, i => Source.nth_empty rfl i
  | _ :: _, _, 0 => Source.nth_zero rfl
  | _ :: xs, calls, i + 1 => (Source.nth_succ rfl i).trans (nth_gapless xs (calls + 1) i)

/-- A script without gaps gives its elements. -/
theorem yields (xs : List ε) : Source.Yields xs (ofList (xs.map some)) where
  fused a b hl hn := by
    obtain ⟨ys, hys⟩ := gapless_of_later hl ⟨xs, rfl⟩
    obtain ⟨answers, calls⟩ := a
    dsimp only at hys
    subst hys
    cases ys with
    | nil =>
      cases hn
      exact ⟨_, rfl⟩
    | cons y ys => cases hn
  nth := nth_gapless xs 0

end Script

namespace Buffered

variable {s ε : Type} [Source s ε]

/-- The element at index `i`, from the buffer or else from the source. -/
def element (c : Buffered s ε) (i : Nat) : Option (Option ε) :=
  match c.buffer[i]? with
  | some x => some (some x)
  | none => Source.nth (i - c.buffer.size) c.source

/-- The cursor stands in the sequence `f`, and its source is fused. -/
structure Holds (c : Buffered s ε) (f : Nat → Option (Option ε)) : Prop where
  element (i : Nat) : c.element i = f i
  fused : Source.Fused c.source

variable {c : Buffered s ε} {f : Nat → Option (Option ε)} {source : s} {x : ε}

theorem holds_ofSource (h : Source.Fused source) :
    (ofSource source : Buffered s ε).Holds fun i => Source.nth i source :=
  ⟨fun _ => rfl, h⟩

/-- The place does not matter. -/
theorem Holds.withPos (h : c.Holds f) (pos : Nat) :
    ({ c with pos := pos } : Buffered s ε).Holds f :=
  ⟨h.element, h.fused⟩

/-- After a call that gives nothing. -/
theorem Holds.empty (h : c.Holds f) (hn : Source.next c.source = some (none, source)) :
    ({ c with source := source } : Buffered s ε).Holds f where
  element i := by
    rw [← h.element i]
    unfold Buffered.element
    cases c.buffer[i]? with
    | some x => rfl
    | none =>
      dsimp only
      rw [h.fused.nth_next hn, Source.nth_empty hn]
  fused := h.fused.next hn

/-- After a call that gives an element. -/
theorem Holds.push (h : c.Holds f) (hn : Source.next c.source = some (some x, source)) :
    ({ c with source := source, buffer := c.buffer.push x } : Buffered s ε).Holds f where
  element i := by
    rw [← h.element i]
    unfold Buffered.element
    rcases Nat.lt_trichotomy i c.buffer.size with hi | rfl | hi
    · simp [Array.getElem?_push, hi, Nat.ne_of_lt hi]
    · simp [Source.nth_zero hn]
    · obtain ⟨k, rfl⟩ := Nat.exists_eq_add_of_lt hi
      have hk : c.buffer.size + k + 1 - c.buffer.size = k + 1 := by omega
      have hk' : c.buffer.size + k + 1 - (c.buffer.push x).size = k := by simp
      rw [Array.getElem?_eq_none (by simp), Array.getElem?_eq_none (by omega), hk, hk']
      exact (Source.nth_succ hn k).symm
  fused := h.fused.next hn

/-- Fetching up to index `i` tells what is there. -/
theorem Holds.fetch {i : Nat} : ∀ {missing : Nat} {c : Buffered s ε}, c.Holds f →
    missing = i + 1 - c.buffer.size →
    match f i with
    | none => Buffered.fetch missing c = none
    | some x => ∃ d, Buffered.fetch missing c = some (x.isSome, d) ∧ d.Holds f ∧ d.pos = c.pos ∧
      d.buffer[i]? = x
  | 0, c, h, hm => by
    have hi : i < c.buffer.size := by omega
    have he : f i = some (some c.buffer[i]) := by
      rw [← h.element, Buffered.element, Array.getElem?_eq_getElem hi]
    rw [he]
    exact ⟨c, rfl, h, rfl, Array.getElem?_eq_getElem hi⟩
  | missing + 1, c, h, hm => by
    have hi : c.buffer[i]? = none := Array.getElem?_eq_none (by omega)
    have he : f i = Source.nth (i - c.buffer.size) c.source := by
      rw [← h.element, Buffered.element, hi]
    unfold Buffered.fetch
    match hn : Source.next c.source with
    | none => rw [he, Source.nth_never hn]
    | some (none, source) =>
      rw [he, Source.nth_empty hn]
      exact ⟨_, rfl, h.empty hn, rfl, hi⟩
    | some (some x, source) => exact (h.push hn).fetch (by simp; omega)

theorem Holds.fill (h : c.Holds f) :
    match f c.pos with
    | none => c.fill = none
    | some x => ∃ d, c.fill = some (x.isSome, d) ∧ d.Holds f ∧ d.pos = c.pos ∧
      d.buffer[c.pos]? = x :=
  h.fetch rfl

/-- Reading gives the element at the place, and moves over it if there is one. -/
theorem Holds.read (h : c.Holds f) :
    match f c.pos with
    | none => c.read = none
    | some x => ∃ d, c.read = some (x, d) ∧ d.Holds f ∧
      d.pos = if x.isSome then c.pos + 1 else c.pos := by
  have hf := h.fill
  unfold Buffered.read
  match f c.pos, hf with
  | none, hf => rw [hf]
  | some none, ⟨d, hd, hh, hp, hb⟩ => exact ⟨d, by simp [hd, hb, hp], hh, hp⟩
  | some (some x), ⟨d, hd, hh, hp, hb⟩ =>
    exact ⟨{ d with pos := c.pos + 1 }, by simp [hd, hb, hp], hh.withPos _, rfl⟩

end Buffered
end Descent
