import Descent.Proofs.Alike

/-!
# Eager cursors

A cursor whose elements are all there from the start, with an index into them. It has no buffer and
no source, and does what a buffered cursor does over a source of the same elements: main theorem
`lazy_iff_eager`. How much is in the buffer, and what filled it, cannot be seen in any run.
-/

namespace Descent

/-- A place in a list of elements. -/
structure Eager (ε : Type) where
  elements : List ε
  pos : Nat

namespace Eager

variable {s ε : Type}

def read (c : Eager ε) : Option ε × Eager ε :=
  match c.elements[c.pos]? with
  | none => (none, c)
  | some x => (some x, { c with pos := c.pos + 1 })

def unread (c : Eager ε) : Option (Eager ε) :=
  if c.pos = 0 then none else some { c with pos := c.pos - 1 }

instance : Cursor (Eager ε) ε where
  read c := some c.read
  unread := unread
  restore _ earlier := earlier
  offset := pos
  exhausted c := some (decide (c.elements.length ≤ c.pos), c)

/-! ## Beside a buffered cursor -/

variable [Source s ε]

/-- The same place in the elements `xs`, some of which may still have to be fetched on the left. -/
structure Beside (xs : List ε) (c : Buffered s ε) (d : Eager ε) : Prop where
  elements : d.elements = xs
  pos : d.pos = c.pos
  holds : c.Holds fun i => some xs[i]?

variable {xs : List ε} {c : Buffered s ε} {d : Eager ε}

theorem Beside.read (h : Beside xs c d) :
    ∃ c', c.read = some (d.read.1, c') ∧ Beside xs c' d.read.2 := by
  obtain ⟨c', hc, hh, hp⟩ := h.holds.read
  have he : d.elements[d.pos]? = xs[c.pos]? := by rw [h.elements, h.pos]
  unfold Eager.read
  rw [he]
  cases hx : xs[c.pos]? with
  | none =>
    rw [hx] at hc hp
    refine ⟨c', hc, h.elements, ?_, hh⟩
    simp [hp, h.pos]
  | some x =>
    rw [hx] at hc hp
    refine ⟨c', hc, h.elements, ?_, hh⟩
    simp [hp, h.pos]

theorem Beside.unread (h : Beside xs c d) : Option.Rel (Beside xs) c.unread d.unread := by
  unfold Buffered.unread Eager.unread
  rw [h.pos]
  by_cases hp : c.pos = 0
  · rw [if_pos hp, if_pos hp]
    exact .none
  · rw [if_neg hp, if_neg hp]
    exact .some ⟨h.elements, rfl, h.holds.withPos _⟩

theorem Beside.exhausted (h : Beside xs c d) :
    ∃ c', Cursor.exhausted c = some (decide (d.elements.length ≤ d.pos), c') ∧ Beside xs c' d := by
  obtain ⟨c', hc, hh, hp, -⟩ := h.holds.fill
  have hx : (!xs[c.pos]?.isSome) = decide (d.elements.length ≤ d.pos) := by
    rw [h.elements, h.pos]
    by_cases hl : xs.length ≤ c.pos
    · simp [hl]
    · have hlt : c.pos < xs.length := by omega
      simp [hl, hlt]
  have he : Cursor.exhausted c = c.fill.map fun r => (!r.1, r.2) := rfl
  rw [he, hc, ← hx]
  exact ⟨c', rfl, h.elements, h.pos.trans hp.symm, hh⟩

/-- A buffered cursor over a source of `xs`, and an index into `xs`. -/
def correspondence (s : Type) [Source s ε] (xs : List ε) :
    Correspondence (Buffered s ε) (Eager ε) where
  Rel := Beside xs
  relocate := id
  offset h := h.pos
  apart h h' hp := (h'.pos.symm.trans hp).trans h.pos
  read {c d} h := by
    obtain ⟨c', hc, h'⟩ := h.read
    rw [show Cursor.read c = _ from hc]
    exact .some ⟨rfl, h'⟩
  unread {c d x c' d'} h hc hd := by
    obtain ⟨c₁, hc₁, h'⟩ := h.read
    have hc' : c₁ = c' := by
      rw [show Cursor.read c = _ from hc₁] at hc
      exact (Prod.mk.inj (Option.some.inj hc)).2
    have hd' : d.read.2 = d' := (Prod.mk.inj (Option.some.inj hd)).2
    rw [hc', hd'] at h'
    exact h'.unread
  restore h h' := ⟨h.elements, h.pos, h'.holds.withPos _⟩
  exhausted {c d} h := by
    obtain ⟨c', hc, h'⟩ := h.exhausted
    rw [hc]
    exact .some ⟨rfl, h'⟩
  visit _ h := h

end Eager

namespace Buffered

variable {s ε α : Type} [Source s ε]

/-- A buffer that holds a first part of `xs`, in front of a source of the rest. -/
theorem holds_partway {xs : List ε} {k : Nat} {rest : s} (h : Source.Yields (xs.drop k) rest)
    (pos : Nat) : (⟨rest, (xs.take k).toArray, pos⟩ : Buffered s ε).Holds fun i => some xs[i]? where
  element i := by
    unfold Buffered.element
    by_cases hi : i < (xs.take k).length
    · have hk : i < k := by
        rw [List.length_take] at hi
        omega
      have hb : (xs.take k).toArray[i]? = xs[i]? := by
        rw [List.getElem?_toArray, List.getElem?_take_of_lt hk]
      have hx : i < xs.length := by
        rw [List.length_take] at hi
        omega
      simp [hb, hx]
    · have hb : (xs.take k).toArray[i]? = none := by
        rw [List.getElem?_toArray]
        exact List.getElem?_eq_none (by omega)
      rw [hb]
      dsimp only
      rw [h.nth, List.getElem?_drop, List.size_toArray]
      rw [List.length_take] at hi ⊢
      by_cases hk : k ≤ xs.length
      · rw [Nat.min_eq_left hk] at hi ⊢
        rw [Nat.add_sub_cancel' (by omega)]
      · rw [List.getElem?_eq_none (by omega), List.getElem?_eq_none (by omega)]
  fused := h.fused

/-- Whatever first part of `xs` is in the buffer, and whatever has been run, read and restored since:
a grammar comes to the same from there as from the index into `xs`, and so it does every time that
it is run from the same checkpoint. -/
theorem lazy_iff_eager [Element ε] {xs : List ε} {k pos : Nat} {rest : s}
    (hs : Source.Yields (xs.drop k) rest) {c : Buffered s ε}
    (hc : Reachable .plain ⟨rest, (xs.take k).toArray, pos⟩ c) (g : Grammar ε .plain [] α) :
    (∀ result stop, Outcome Cursor.offset g c result stop ↔
      Outcome Cursor.offset g (Eager.mk xs c.pos) result stop) ∧
    ∀ now, Reachable .plain c now → ∀ result stop,
      Outcome Cursor.offset g (Cursor.restore now c) result stop ↔
        Outcome Cursor.offset g c result stop := by
  have heager : ∀ d : Buffered s ε, (d.Holds fun i => some xs[i]?) → ∀ result stop,
      Outcome Cursor.offset g d result stop ↔
        Outcome Cursor.offset g (Eager.mk xs d.pos) result stop := by
    intro d hd result stop
    have hb : Eager.Beside xs d (Eager.mk xs d.pos) := ⟨rfl, rfl, hd⟩
    exact Correspondence.outcome_iff (C := Eager.correspondence s xs) rfl hb g result stop
  have hh : c.Holds fun i => some xs[i]? := (holds_partway hs pos).reachable hc
  refine ⟨heager c hh, ?_⟩
  intro now hnow result stop
  have hback : (Cursor.restore now c : Buffered s ε).Holds fun i => some xs[i]? :=
    (hh.reachable hnow).withPos c.pos
  -- both sides stand at the same index, which is all that the eager run depends on
  exact (heager _ hback result stop).trans (heager c hh result stop).symm

/-- Two of three elements are in the buffer and one of them has been passed. A run that asks for one
element too many fails at the end of the input, and does so again from the same checkpoint. -/
theorem any_past_end :
    Source.Yields (([1, 2, 3] : List Int).drop 2) (Script.ofList [some 3]) ∧
      Reachable .plain (⟨Script.ofList [some 3], #[1, 2], 0⟩ : Buffered (Script Int) Int)
        ⟨Script.ofList [some 3], #[1, 2], 1⟩ ∧
      ∃ now, (.right (.count 8 2 .any) .any : Grammar Int .plain [] Int).Returns
          (⟨Script.ofList [some 3], #[1, 2], 1⟩ : Buffered (Script Int) Int)
          ⟨.error (.endOfInput 3), now⟩ ∧ now.pos = 3 ∧
        Outcome Cursor.offset (.right (.count 8 2 .any) .any : Grammar Int .plain [] Int)
          (Cursor.restore now (⟨Script.ofList [some 3], #[1, 2], 1⟩ : Buffered (Script Int) Int))
          (.error (.endOfInput 3)) 3 := by
  have hs : Source.Yields (([1, 2, 3] : List Int).drop 2) (Script.ofList [some 3]) :=
    Script.yields [3]
  have hc : Reachable .plain (⟨Script.ofList [some 3], #[1, 2], 0⟩ : Buffered (Script Int) Int)
      ⟨Script.ofList [some 3], #[1, 2], 1⟩ := Reachable.start.read rfl
  have he : (.right (.count 8 2 .any) .any : Grammar Int .plain [] Int).Returns
      (Eager.mk [1, 2, 3] 1) ⟨.error (.endOfInput 3), ⟨[1, 2, 3], 3⟩⟩ := ⟨0, rfl⟩
  have h := lazy_iff_eager hs hc (.right (.count 8 2 .any) .any)
  obtain ⟨now, hnow, hp⟩ := (h.1 _ _).2 ⟨_, he, rfl⟩
  exact ⟨hs, hc, now, hnow, hp, (h.2 now (Reachable.start.run hnow) _ _).2 ⟨now, hnow, hp⟩⟩

end Buffered
end Descent
