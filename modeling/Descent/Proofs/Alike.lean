import Descent.Grammar.Text
import Descent.Proofs.Contents
import Descent.Proofs.Correspondence

/-!
# Cursors that cannot be told apart

Two cursors are `Alike` if every grammar does the same from both, as far as one can see: the same
value or failure, and a final cursor of the same appearance. Going back to the start of a run leads
to a cursor like the one the run began at. On a text it is that cursor itself; on a fused source it
has more elements in its buffer but stands in the same sequence (`Buffered.restore_alike`).
-/

namespace Descent

section

variable {σ ε V α : Type} [Cursor σ ε] [Element ε] (S : Signature) [Interprets S σ] (seen : σ → V)

/-- From `c` the grammar comes to the result, and the cursor then looks like `final`. -/
def Outcome {S : Signature} [Interprets S σ] (g : Grammar ε S [] α) (c : σ)
    (result : Except ParseError α) (final : V) : Prop :=
  ∃ d, g.Returns c ⟨result, d⟩ ∧ seen d = final

/-- Whatever is run comes to the same from `c` and from `d`. -/
def Alike (c d : σ) : Prop :=
  ∀ (β : Type) (q : Grammar ε S [] β) (result : Except ParseError β) (final : V),
    Outcome seen q c result final ↔ Outcome seen q d result final

variable {S seen} {c d e : σ}

theorem Alike.refl (c : σ) : Alike S seen c c := fun _ _ _ _ => Iff.rfl

theorem Alike.symm (h : Alike S seen c d) : Alike S seen d c := fun β q v f => (h β q v f).symm

theorem Alike.trans (h : Alike S seen c d) (h' : Alike S seen d e) : Alike S seen c e :=
  fun β q v f => (h β q v f).trans (h' β q v f)

/-- A grammar that fails from one of the cursors fails from the other. -/
theorem Alike.fails {g : Grammar ε S [] α} {error : ParseError} (h : Alike S seen c d) :
    (∃ x, g.Returns c ⟨.error error, x⟩) → ∃ x, g.Returns d ⟨.error error, x⟩
  | ⟨x, hx⟩ => by
    obtain ⟨y, hy, -⟩ := (h α g (.error error) (seen x)).1 ⟨x, hx, rfl⟩
    exact ⟨y, hy⟩

end

namespace Buffered

variable {s ε : Type} [Source s ε]

/-- The same place in the sequence `f`. -/
structure Same (f : Nat → Option (Option ε)) (c d : Buffered s ε) : Prop where
  pos : d.pos = c.pos
  left : c.Holds f
  right : d.Holds f

variable {f : Nat → Option (Option ε)} {c d : Buffered s ε}

theorem Same.read (h : Same f c d) :
    Option.Rel (fun r r' => r.1 = r'.1 ∧ Same f r.2 r'.2) c.read d.read := by
  have hc := h.left.read
  have hd := h.right.read
  rw [h.pos] at hd
  match f c.pos, hc, hd with
  | none, hc, hd =>
    rw [hc, hd]
    exact .none
  | some x, ⟨c', hc, hl, hp⟩, ⟨d', hd, hr, hp'⟩ =>
    rw [hc, hd]
    exact .some ⟨rfl, hp'.trans hp.symm, hl, hr⟩

theorem Same.exhausted (h : Same f c d) :
    Option.Rel (fun r r' => r.1 = r'.1 ∧ Same f r.2 r'.2) (Cursor.exhausted c)
      (Cursor.exhausted d) := by
  have hc := h.left.fill
  have hd := h.right.fill
  rw [h.pos] at hd
  show Option.Rel _ (c.fill.map _) (d.fill.map _)
  match f c.pos, hc, hd with
  | none, hc, hd =>
    rw [hc, hd]
    exact .none
  | some x, ⟨c', hc, hl, hp, _⟩, ⟨d', hd, hr, hp', _⟩ =>
    rw [hc, hd]
    exact .some ⟨rfl, hp'.trans hp.symm, hl, hr⟩

theorem Holds.unread (h : c.Holds f) (hd : c.unread = some d) : d.Holds f := by
  unfold Buffered.unread at hd
  split at hd
  · cases hd
  · cases hd
    exact h.withPos _

theorem Same.unread (h : Same f c d) : Option.Rel (Same f) c.unread d.unread := by
  unfold Buffered.unread
  rw [h.pos]
  split
  · exact .none
  · exact .some ⟨rfl, h.left.withPos _, h.right.withPos _⟩

/-- Cursors at the same place of one sequence correspond. -/
def same (f : Nat → Option (Option ε)) : Correspondence (Buffered s ε) (Buffered s ε) where
  Rel := Same f
  relocate := id
  offset h := h.pos
  apart h h' hp := h'.pos.symm.trans (hp.trans h.pos)
  read h := h.read
  unread {c d x c' d'} h hc hd := by
    have hr := h.read
    rw [show c.read = _ from hc, show d.read = _ from hd] at hr
    cases hr with
    | some hr => exact hr.2.unread
  restore h h' := ⟨h.pos, h'.left.withPos _, h'.right.withPos _⟩
  exhausted h := h.exhausted
  visit _ h := h

theorem Holds.same (h : c.Holds f) : Same f c c := ⟨rfl, h, h⟩

/-- Runs keep the sequence. -/
def sequence : Course (Buffered s ε) where
  Ahead c d := ∀ f, c.Holds f → d.Holds f
  refl _ _ h := h
  trans h h' f hf := h' f (h f hf)
  read {c d x} h f hf := by
    have hr := hf.same.read
    rw [show c.read = _ from h] at hr
    cases hr with
    | some hr => exact hr.2.right
  unread {c d b x} h hb f hf := by
    have hr := hf.same.read
    rw [show c.read = _ from h] at hr
    cases hr with
    | some hr => exact hr.2.right.unread hb
  restore h f hf := (h f hf).withPos _
  exhausted {c d b} h f hf := by
    have he := hf.same.exhausted
    rw [h] at he
    cases he with
    | some he => exact he.2.right
  visit _ _ _ h := h

theorem holds_of_returns {α : Type} {g : Grammar ε .plain [] α} {r : Reply (Buffered s ε) α}
    [Element ε] (h : c.Holds f) (hr : g.Returns c r) : r.cursor.Holds f :=
  hr.ahead (K := sequence) (fun p => PEmpty.elim p) f h

/-- Every cursor that can be made out of one stands in its sequence. -/
theorem Holds.reachable [Element ε] (h : c.Holds f) (hd : Reachable .plain c d) : d.Holds f := by
  induction hd with
  | start => exact h
  | read _ hd ih => exact sequence.read hd _ ih
  | unread _ hd ih => exact ih.unread hd
  | restore _ _ ih => exact ih.withPos _
  | exhausted _ hd ih => exact sequence.exhausted hd _ ih
  | visit _ _ ih => exact ih
  | run _ hr ih => exact holds_of_returns ih hr

/-- In particular out of the start of a fused source. -/
theorem holds_of_reachable [Element ε] {source : s} (hs : Source.Fused source)
    (h : Reachable .plain (ofSource source : Buffered s ε) c) :
    c.Holds fun i => Source.nth i source :=
  (holds_ofSource hs).reachable h

end Buffered

/-! ## Going back -/

/-- Where both kinds of cursors count alike, the same comes out on both sides. -/
theorem Correspondence.outcome_iff {σ τ ε β : Type} [Cursor σ ε] [Cursor τ ε] [Element ε]
    {C : Correspondence σ τ} (hid : C.relocate = id) {c : σ} {d : τ} (h : C.Rel c d)
    (q : Grammar ε .plain [] β) (result : Except ParseError β) (final : Nat) :
    Outcome Cursor.offset q c result final ↔ Outcome Cursor.offset q d result final := by
  have hresult : ∀ r : Except ParseError β, r.mapError (ParseError.relocate C.relocate) = r := by
    intro r
    rw [hid]
    cases r with
    | ok v => rfl
    | error e => exact congrArg Except.error (ParseError.relocate_id e)
  have hoffset : ∀ {x y}, C.Rel x y → Cursor.offset y = Cursor.offset x := by
    intro x y hxy
    rw [C.offset hxy, hid, id]
  constructor
  · rintro ⟨x, hx, rfl⟩
    obtain ⟨⟨result', y⟩, hy, he, hp⟩ := Correspondence.returns_right h hx
    have he : result' = result := he.trans (hresult result)
    exact ⟨y, he ▸ hy, hoffset hp⟩
  · rintro ⟨y, hy, rfl⟩
    obtain ⟨⟨result', x⟩, hx, he, hp⟩ := Correspondence.returns_left h hy
    have he : result = result' := he.trans (hresult result')
    exact ⟨x, he ▸ hx, (hoffset hp).symm⟩

theorem Buffered.Same.alike {s ε : Type} [Source s ε] [Element ε] {f : Nat → Option (Option ε)}
    {c d : Buffered s ε} (h : Same f c d) : Alike .plain Buffered.pos c d :=
  fun _ => Correspondence.outcome_iff (C := same f) rfl h

/-- After any run, the start of the run is as it was. On a text it is even the same cursor. -/
theorem Buffered.restore_alike {s ε α : Type} [Source s ε] [Element ε]
    {f : Nat → Option (Option ε)} {g : Grammar ε .plain [] α} {c : Buffered s ε}
    {r : Reply (Buffered s ε) α} (h : c.Holds f) (hr : g.Returns c r) :
    Alike .plain Buffered.pos (Cursor.restore r.cursor c) c := by
  have hs : Same f (Cursor.restore r.cursor c) c :=
    ⟨rfl, (holds_of_returns h hr).withPos c.pos, h⟩
  exact hs.alike

/-- What is to be shown of a kind of cursor: that going back to the start of a run leads to a place
like the one where it began. -/
structure Restores {σ ε V : Type} [Cursor σ ε] [Element ε] (S : Signature) [Interprets S σ]
    (seen : σ → V) (start : σ) : Prop where
  alike {α : Type} {g : Grammar ε S [] α} {c : σ} {r : Reply σ α} : Reachable S start c →
    g.Returns c r → Alike S seen (Cursor.restore r.cursor c) c

theorem TextCursor.restores (start : TextCursor) :
    Restores .text (fun c : TextCursor => (c.offset, c.line)) start :=
  ⟨fun _ _ => Alike.refl _⟩

section

variable {s ε : Type} [Source s ε] {c : Buffered s ε}

/-- A cursor stands in the sequence of its own elements. -/
theorem Buffered.holds_self (h : Source.Fused c.source) : c.Holds c.element := ⟨fun _ => rfl, h⟩

variable [Element ε]

theorem Buffered.restores_self (h : Source.Fused c.source) : Restores .plain Buffered.pos c :=
  ⟨fun hc hr => restore_alike ((holds_self h).reachable hc) hr⟩

theorem Buffered.restores {source : s} (hs : Source.Fused source) :
    Restores .plain Buffered.pos (ofSource source : Buffered s ε) :=
  restores_self hs

end

end Descent
