import Descent.Proofs.FiniteSource
import Descent.Proofs.TokenStream

/-!
# What a cursor takes out of its source: `IterCursor::fill`

A cursor over a source is moved in any way: `Walk` keeps the places that it has been at, which are
the checkpoints it can go back to. Main theorem `Buffered.source_conserved`: whatever the source is,
with gaps or without, its elements are those in the buffer and then those still to come; reading
gives the element that the source has at that index; and the source is asked once at most, for an
element that is not in the buffer. Every run of every grammar is a walk (`Buffered.walking`).
-/

namespace Descent

namespace Source

variable {s ε : Type} [Source s ε] {a b c : s} {x y : ε} {xs ys : List (Option ε)} {i : Nat}

/-- Of two series of answers the longer one goes on where the other one ends. -/
theorem Answers.rest (h : Answers a xs b) (h' : Answers a ys c) (hl : xs.length ≤ ys.length) :
    ∃ zs, ys = xs ++ zs ∧ Answers b zs c := by
  induction h generalizing ys with
  | nil => exact ⟨ys, rfl, h'⟩
  | cons hn _ ih =>
    cases h' with
    | nil => simp at hl
    | cons hn' h' =>
      cases hn.symm.trans hn'
      obtain ⟨zs, rfl, hzs⟩ := ih h' (by simpa using hl)
      exact ⟨zs, rfl, hzs⟩

/-- Called often enough, the source gives `x` as its element number `i`. -/
def Gives (a : s) (i : Nat) (x : ε) : Prop :=
  ∃ answers b, Answers a answers b ∧ answers.reduceOption[i]? = some x

/-- The elements of a source are those it has given and then those it gives from there on. -/
theorem Answers.gives_iff (h : Answers a xs b) : Gives a i x ↔ xs.reduceOption[i]? = some x ∨
    xs.reduceOption.length ≤ i ∧ Gives b (i - xs.reduceOption.length) x := by
  constructor
  · rintro ⟨ys, c, hys, hx⟩
    obtain hl | hl := Nat.le_total xs.length ys.length
    · obtain ⟨zs, rfl, hzs⟩ := h.rest hys hl
      rw [List.reduceOption_append, List.getElem?_append] at hx
      split at hx
      · exact .inl hx
      · exact .inr ⟨by omega, zs, c, hzs, hx⟩
    · obtain ⟨zs, rfl, -⟩ := hys.rest h hl
      obtain ⟨hi, -⟩ := List.getElem?_eq_some_iff.1 hx
      rw [List.reduceOption_append, List.getElem?_append_left hi]
      exact .inl hx
  · rintro (hx | ⟨hi, zs, c, hzs, hx⟩)
    · exact ⟨xs, b, h, hx⟩
    · refine ⟨xs ++ zs, c, h.append hzs, ?_⟩
      rwa [List.reduceOption_append, List.getElem?_append_right hi]

theorem Gives.unique (h : Gives a i x) (h' : Gives a i y) : x = y := by
  obtain ⟨xs, b, hxs, hx⟩ := h
  obtain hy | ⟨hi, -⟩ := hxs.gives_iff.1 h'
  · exact Option.some.inj (hx.symm.trans hy)
  · rw [List.getElem?_eq_none hi] at hx
    cases hx

end Source

namespace Buffered

open Source

variable {s ε : Type} [Source s ε]

/-! ## Walks -/

/-- A cursor that has begun at `start` has been at the places `past`, latest first, and is at the
last argument now. It can go back to any of them. -/
inductive Walk (start : Buffered s ε) : List (Buffered s ε) → Buffered s ε → Prop
  | here : Walk start [] start
  | read {past c d x} : Walk start past c → Cursor.read c = some (x, d) →
    Walk start (c :: past) d
  | unread {past c d} : Walk start past c → Cursor.unread c = some d → Walk start (c :: past) d
  | restore {past c checkpoint} : Walk start past c → checkpoint ∈ c :: past →
    Walk start (c :: past) (Cursor.restore c checkpoint)
  | exhausted {past c d ended} : Walk start past c → Cursor.exhausted c = some (ended, d) →
    Walk start (c :: past) d

variable {source : s} {a b c d : Buffered s ε} {past later : List (Buffered s ε)}

theorem Walk.trans (h : Walk a past b) (h' : Walk b later c) : Walk a (later ++ past) c := by
  induction h' with
  | here => exact h
  | read _ hr ih => exact ih.read hr
  | unread _ hu ih => exact ih.unread hu
  | @restore later c checkpoint _ hm ih =>
    exact ih.restore (List.mem_append_left past hm : checkpoint ∈ (c :: later) ++ past)
  | exhausted _ he ih => exact ih.exhausted he

theorem Walk.start_mem (h : Walk a past c) : a ∈ c :: past := by
  induction h with
  | here => exact List.mem_singleton_self a
  | read _ _ ih | unread _ _ ih | restore _ _ ih | exhausted _ _ ih => exact .tail _ ih

/-- Every run is a walk. -/
def walking : Course (Buffered s ε) where
  Ahead c d := ∃ past, Walk c past d
  refl _ := ⟨[], .here⟩
  trans := fun ⟨_, h⟩ ⟨_, h'⟩ => ⟨_, h.trans h'⟩
  read h := ⟨_, Walk.here.read h⟩
  unread h hb := ⟨_, (Walk.here.read h).unread hb⟩
  restore := fun ⟨_, h⟩ => ⟨_, h.restore h.start_mem⟩
  exhausted h := ⟨_, Walk.here.exhausted h⟩
  visit _ _ := ⟨[], .here⟩

theorem Walk.run [Element ε] {α : Type} {g : Grammar ε .plain [] α} {r : Reply (Buffered s ε) α}
    (h : Walk a past c) (hr : g.Returns c r) : ∃ steps, Walk a (steps ++ past) r.cursor := by
  obtain ⟨steps, hs⟩ := hr.ahead (K := walking) fun p => PEmpty.elim p
  exact ⟨steps, h.trans hs⟩

/-! ## One step -/

/-- From `c` to `d` the source has been asked once at most, and not at all if there is an element
at the cursor. -/
def Asks (c d : Buffered s ε) : Prop :=
  ∃ answers, Pulled c d answers ∧ answers.length ≤ 1 ∧ (c.pos < c.buffer.size → answers = [])

/-- Moving within the buffer asks for nothing. -/
theorem asks_withPos (c : Buffered s ε) (pos : Nat) : Asks c { c with pos := pos } :=
  ⟨[], ⟨.nil, (List.append_nil _).symm⟩, Nat.zero_le 1, fun _ => rfl⟩

theorem Asks.size_le (h : Asks c d) : c.buffer.size ≤ d.buffer.size := by
  obtain ⟨answers, ⟨-, hb⟩, -⟩ := h
  have hl := congrArg List.length hb
  simp only [Array.length_toList, List.length_append] at hl
  omega

theorem Asks.size_le_max (h : Asks c d) : d.buffer.size ≤ max c.buffer.size (c.pos + 1) := by
  obtain ⟨answers, ⟨-, hb⟩, hone, hnone⟩ := h
  have hl := congrArg List.length hb
  simp only [Array.length_toList, List.length_append] at hl
  by_cases hp : c.pos < c.buffer.size
  · rw [hnone hp] at hl
    simp only [List.reduceOption_nil, List.length_nil] at hl
    omega
  · have hle := List.reduceOption_length_le answers
    omega

/-- At the end of the buffer the source has had nothing to give. -/
def Misses (c d : Buffered s ε) : Prop :=
  c.pos = c.buffer.size ∧ Source.next c.source = some (none, d.source)

/-- Inside its buffer or at the end of it, a cursor fetches one element at most. -/
theorem asks_of_fill {filled : Bool} (hc : c.pos ≤ c.buffer.size)
    (h : c.fill = some (filled, d)) :
    Asks c d ∧ (filled = true ∧ c.pos < d.buffer.size ∨ filled = false ∧ Misses c d) := by
  unfold fill at h
  obtain hlt | heq := Nat.lt_or_eq_of_le hc
  · rw [Nat.sub_eq_zero_of_le hlt] at h
    cases h
    exact ⟨asks_withPos c c.pos, .inl ⟨rfl, hlt⟩⟩
  · rw [heq, Nat.add_sub_cancel_left] at h
    have hnot : ¬ c.pos < c.buffer.size := Nat.not_lt.2 (Nat.le_of_eq heq.symm)
    unfold fetch at h
    split at h
    · cases h
    · rename_i rest hn
      cases h
      have hp : Pulled c { c with source := rest } [none] :=
        ⟨.cons hn .nil, (List.append_nil _).symm⟩
      exact ⟨⟨[none], hp, Nat.le_refl 1, fun h => (hnot h).elim⟩, .inr ⟨rfl, heq, hn⟩⟩
    · rename_i x rest hn
      cases h
      have hp : Pulled c { c with source := rest, buffer := c.buffer.push x } [some x] :=
        ⟨.cons hn .nil, Array.toList_push⟩
      refine ⟨⟨[some x], hp, Nat.le_refl 1, fun h => (hnot h).elim⟩, .inl ⟨rfl, ?_⟩⟩
      rw [Array.size_push, heq]
      exact Nat.lt_succ_self _

theorem asks_of_exhausted {ended : Bool} (hc : c.pos ≤ c.buffer.size)
    (h : Cursor.exhausted c = some (ended, d)) :
    Asks c d ∧ d.pos = c.pos ∧ (ended = true → Misses c d) := by
  obtain ⟨⟨filled, d'⟩, hf, he⟩ := Option.map_eq_some_iff.1 h
  cases he
  obtain ⟨ha, hfilled⟩ := asks_of_fill hc hf
  refine ⟨ha, (of_fill hf).1, fun hend => ?_⟩
  rcases hfilled with ⟨rfl, -⟩ | ⟨-, hm⟩
  · cases hend
  · exact hm

/-- What is read is in the buffer afterwards, where the cursor was. -/
theorem asks_of_read {x : Option ε} (hc : c.pos ≤ c.buffer.size) (h : c.read = some (x, d)) :
    Asks c d ∧ d.buffer[c.pos]? = x ∧ (x = none → Misses c d) := by
  unfold read at h
  split at h
  · cases h
  · rename_i filled c' hf
    obtain ⟨hp, -⟩ := of_fill hf
    obtain ⟨ha, hfilled⟩ := asks_of_fill hc hf
    rw [hp] at h
    split at h
    · rename_i hx
      cases h
      refine ⟨ha, hx, fun _ => ?_⟩
      rcases hfilled with ⟨-, hlt⟩ | ⟨-, hm⟩
      · exact absurd (Array.getElem?_eq_none_iff.1 hx) (Nat.not_le.2 hlt)
      · exact hm
    · rename_i x hx
      cases h
      exact ⟨ha, hx, fun hnone => absurd hnone (Option.some_ne_none x)⟩

/-- Filling comes back if the source does. -/
theorem fill_isSome (hc : c.pos ≤ c.buffer.size) (h : (Source.next c.source).isSome) :
    c.fill.isSome := by
  unfold fill
  obtain hlt | heq := Nat.lt_or_eq_of_le hc
  · rw [Nat.sub_eq_zero_of_le hlt]
    rfl
  · rw [heq, Nat.add_sub_cancel_left]
    unfold fetch
    obtain ⟨⟨x, rest⟩, hn⟩ := Option.isSome_iff_exists.1 h
    rw [hn]
    cases x <;> rfl

theorem read_isSome (h : c.fill.isSome) : c.read.isSome := by
  obtain ⟨⟨filled, d⟩, hf⟩ := Option.isSome_iff_exists.1 h
  unfold read
  rw [hf]
  dsimp only
  split <;> rfl

/-! ## All of them -/

/-- What every walk from the start of `source` keeps. -/
structure Stocked (source : s) (past : List (Buffered s ε)) (c : Buffered s ε) : Prop where
  inside : ∀ b ∈ c :: past, b.pos ≤ c.buffer.size
  pulled : ∃ answers, Pulled (ofSource source) c answers
  /-- The last element of the buffer has been asked for where it was missing. -/
  needed : ∃ b ∈ c :: past, c.buffer.size ≤ b.pos + 1

theorem Stocked.step (h : Stocked source past c) (ha : Asks c d) (hp : d.pos ≤ d.buffer.size) :
    Stocked source (c :: past) d where
  inside b hb := by
    cases hb with
    | head => exact hp
    | tail _ hb => exact Nat.le_trans (h.inside b hb) ha.size_le
  pulled := by
    obtain ⟨answers, hc⟩ := h.pulled
    obtain ⟨more, hd, -⟩ := ha
    exact ⟨answers ++ more, hc.trans hd⟩
  needed := by
    have hd := ha.size_le_max
    by_cases hle : d.buffer.size ≤ c.buffer.size
    · obtain ⟨b, hb, hsize⟩ := h.needed
      exact ⟨b, .tail d hb, Nat.le_trans hle hsize⟩
    · exact ⟨c, .tail d (.head past), by omega⟩

theorem Walk.stocked (h : Walk (ofSource source) past c) : Stocked source past c := by
  induction h with
  | here =>
    exact ⟨fun b hb => by cases List.mem_singleton.1 hb; exact Nat.le_refl 0,
      ⟨[], .nil, rfl⟩, _, List.mem_singleton_self _, Nat.zero_le _⟩
  | @read past c d x _ hr ih =>
    have hc := ih.inside c (.head past)
    obtain ⟨ha, hx, -⟩ := asks_of_read hc hr
    refine ih.step ha ?_
    obtain ⟨hpos, -⟩ := of_read hr
    rw [hpos]
    cases x with
    | none => exact Nat.le_trans hc ha.size_le
    | some x => exact (Array.getElem?_eq_some_iff.1 hx).1
  | @unread past c d _ hu ih =>
    have hc := ih.inside c (.head past)
    have hu : c.unread = some d := hu
    unfold Buffered.unread at hu
    split at hu
    · cases hu
    · cases hu
      exact ih.step (asks_withPos c _) (Nat.le_trans (Nat.sub_le c.pos 1) hc)
  | @restore past c checkpoint _ hm ih =>
    exact ih.step (asks_withPos c _) (ih.inside checkpoint hm)
  | @exhausted past c d ended _ he ih =>
    have hc := ih.inside c (.head past)
    obtain ⟨ha, hp, -⟩ := asks_of_exhausted hc he
    exact ih.step ha (hp ▸ Nat.le_trans hc ha.size_le)

/-- Nothing of `source` has been lost on the way to `c`, and nothing has been asked for too early.
-/
structure Conserved [Element ε] (source : s) (past : List (Buffered s ε)) (c : Buffered s ε) :
    Prop where
  inside : c.pos ≤ c.buffer.size
  /-- The buffer is what the source has answered so far. -/
  buffer : ∃ answers, Answers source answers c.source ∧ c.buffer.toList = answers.reduceOption
  /-- The elements of the source are those of the buffer and then those still to come. -/
  elements (i : Nat) (x : ε) : Gives source i x ↔
    c.buffer[i]? = some x ∨ c.buffer.size ≤ i ∧ Gives c.source (i - c.buffer.size) x
  read {x : Option ε} {d : Buffered s ε} :
    Cursor.read c = some (x, d) → Asks c d ∧ (x = none → Misses c d)
  /-- What is read is the element of the source at that index. -/
  element {x : ε} {d : Buffered s ε} : Cursor.read c = some (some x, d) →
    d.pos = c.pos + 1 ∧ ∀ y, Gives source c.pos y ↔ y = x
  exhausted {ended : Bool} {d : Buffered s ε} : Cursor.exhausted c = some (ended, d) →
    Asks c d ∧ d.pos = c.pos ∧ (ended = true → Misses c d)
  answers : (Source.next c.source).isSome →
    (Cursor.read c).isSome ∧ (Cursor.exhausted c).isSome
  /-- At most one element beyond the furthest place has been asked for. -/
  needed : ∃ b ∈ c :: past, c.buffer.size ≤ b.pos + 1
  /-- A run of a grammar is a part of a walk. -/
  run {α : Type} {g : Grammar ε .plain [] α} {r : Reply (Buffered s ε) α} : g.Returns c r →
    ∃ steps, Walk (ofSource source) (steps ++ past) r.cursor

/-- However a cursor is moved from the start of a source, with gaps or without, it conserves the
source. -/
theorem source_conserved [Element ε] (h : Walk (ofSource source) past c) :
    Conserved source past c := by
  have hk := h.stocked
  have hc := hk.inside c (.head past)
  obtain ⟨answers, ha, hb⟩ := hk.pulled
  have ha : Answers source answers c.source := ha
  have hb : c.buffer.toList = answers.reduceOption := hb
  refine ⟨hc, ⟨answers, ha, hb⟩, fun i x => ?_, fun hr => ?_, fun {x d} hr => ?_,
    asks_of_exhausted hc, fun hn => ?_, hk.needed, h.run⟩
  · rw [ha.gives_iff, ← hb, Array.getElem?_toList, Array.length_toList]
  · obtain ⟨hasks, -, hm⟩ := asks_of_read hc hr
    exact ⟨hasks, hm⟩
  · obtain ⟨-, hx, -⟩ := asks_of_read hc hr
    have hgives : Gives source c.pos x := by
      obtain ⟨all, hall, hd⟩ := (h.read hr).stocked.pulled
      refine ⟨all, d.source, hall, ?_⟩
      rw [← hx, ← Array.getElem?_toList, hd]
      rfl
    refine ⟨(of_read hr).1, fun y => ⟨fun hy => hy.unique hgives, ?_⟩⟩
    rintro rfl
    exact hgives
  · have hfill := fill_isSome hc hn
    exact ⟨read_isSome hfill, by simpa [Cursor.exhausted] using hfill⟩

/-- A source with a gap before its last element. -/
def gappy : Script Int := .ofList [some 1, none, some 2]

/-- The gap is taken for the end once. The element behind it is read later, and what has been read
before it is read again. -/
theorem gap_conserved : ∃ past c, Walk (ofSource gappy : Buffered _ Int) past c ∧
    c.pos = 0 ∧ c.buffer = #[1, 2] ∧ Source.next c.source = some (none, ⟨[], 4⟩) ∧
    (∀ i x, Gives gappy i x ↔ c.buffer[i]? = some x ∨ 2 ≤ i ∧ Gives c.source (i - 2) x) ∧
    ∀ z, Gives gappy c.pos z ↔ z = 1 := by
  have walk : Walk (ofSource gappy : Buffered _ Int) [] _ := .here
  have walk := walk.read (x := some 1) (d := ⟨⟨[none, some 2], 1⟩, #[1], 1⟩) rfl
  have walk := walk.exhausted (d := ⟨⟨[some 2], 2⟩, #[1], 1⟩) rfl
  have walk := walk.read (x := some 2) (d := ⟨⟨[], 3⟩, #[1, 2], 2⟩) rfl
  have walk := walk.restore walk.start_mem
  have hconserved := source_conserved walk
  exact ⟨_, _, walk, rfl, rfl, rfl, hconserved.elements, (hconserved.element rfl).2⟩

end Buffered

end Descent
