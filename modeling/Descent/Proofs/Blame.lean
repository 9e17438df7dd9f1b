import Descent.Proofs.Course

/-!
# What failures say

`Blame` is to the failures of runs what `Course` is to their ends: its fields are the ways in which
a failure is put together, each with what is known of the cursors at that moment. Main theorem
`Grammar.Returns.blamed`: what holds of every failure that is put together so holds of every
failure of every run.
-/

namespace Descent

/-- Something that is true of the failures of runs which go along a course: `Fault c e`, of the
failure `e` of a run that began at `c`. -/
structure Blame {σ ε : Type} [Cursor σ ε] [Element ε] (K : Course σ) where
  Fault : σ → ParseError → Prop
  /-- What fails later has failed. -/
  later {c d e} : K.Ahead c d → Fault d e → Fault c e
  endOfInput {c d} : Cursor.read c = some (none, d) → Fault c (.endOfInput (Cursor.offset d))
  predicate {c d x} (message : String) : Cursor.read c = some (some x, d) →
    Fault c (.predicate (Cursor.offset c) (Element.shown x) message)
  nothingToUnread {c d x} : Cursor.read c = some (some x, d) → Cursor.unread d = none →
    Fault c (.nothingToUnread (Cursor.offset d))
  unparsed {c d x d'} : Cursor.exhausted c = some (false, d) → Cursor.read d = some (x, d') →
    Fault c (.unparsed (Cursor.offset d) ((x.map Element.shown).getD ""))
  failure (c : σ) (message : String) : Fault c (.failure (Cursor.offset c) message)
  transform (c : σ) (message : String) : Fault c (.transform (Cursor.offset c) message)
  alternatives {c e f} : Fault c e → Fault c f →
    Fault c (.alternatives (Cursor.offset c) [e, f])
  expected {c es} (label : String) : (∀ e ∈ es, Fault c e) →
    Fault c (.expected label (Cursor.offset c) es)
  named {c e} (label : String) : Fault c e → Fault c (.named label e)

namespace Blame

variable {σ ε : Type} [Cursor σ ε] [Element ε] {K : Course σ} (B : Blame K)

private theorem forall_of_forall₂ {c : σ} {es es' : List ParseError}
    (h : List.Forall₂ (fun e e' => e = e' ∧ B.Fault c e) es es') :
    es = es' ∧ ∀ e ∈ es, B.Fault c e := by
  induction h with
  | nil => simp
  | cons he _ ih =>
    obtain ⟨rfl, he⟩ := he
    obtain ⟨rfl, hes⟩ := ih
    exact ⟨rfl, List.forall_mem_cons.2 ⟨he, hes⟩⟩

/-- A run beside itself, with what is true of its failures. -/
def lockstep : Lockstep σ σ where
  __ := K.lockstep
  Fault c _ e e' := e = e' ∧ B.Fault c e
  later h he := by
    obtain ⟨rfl, rfl, ha⟩ := h
    exact ⟨he.1, B.later ha he.2⟩
  endOfInput h hc hd := by
    cases h.1
    cases hc.symm.trans hd
    exact ⟨rfl, B.endOfInput hc⟩
  predicate m h hc _ := by
    cases h.1
    exact ⟨rfl, B.predicate m hc⟩
  nothingToUnread h hc hd hu _ := by
    cases h.1
    cases hc.symm.trans hd
    exact ⟨rfl, B.nothingToUnread hc hu⟩
  unparsed h hc hd hc' hd' := by
    cases h.1
    cases hc.symm.trans hd
    cases hc'.symm.trans hd'
    exact ⟨rfl, B.unparsed hc hc'⟩
  failure m h := by
    cases h.1
    exact ⟨rfl, B.failure _ m⟩
  transform m h := by
    cases h.1
    exact ⟨rfl, B.transform _ m⟩
  alternatives h he hf := by
    cases h.1
    cases he.1
    cases hf.1
    exact ⟨rfl, B.alternatives he.2 hf.2⟩
  expected label h hs := by
    cases h.1
    obtain ⟨rfl, hes⟩ := forall_of_forall₂ B hs
    exact ⟨rfl, B.expected label hes⟩
  named label h := by
    cases h.1
    exact ⟨rfl, B.named label h.2⟩

/-- The same is true of the failures that a signature adds. -/
structure Covers (S : Signature) [Interprets S σ] : Prop where
  moves {α : Type} (p : S.Prim α) : K.Moves (Interprets.prim p)
  prim {α : Type} (p : S.Prim α) {c d : σ} {e : ParseError} :
    Interprets.prim p c = some ⟨.error e, d⟩ → B.Fault c e
  scope {α β : Type} (s : S.Scope α β) (v : α) {c d : σ} {e : ParseError} : K.Ahead c d →
    Interprets.scope s c v d = .error e → B.Fault c e

variable {B} {S : Signature} [Interprets S σ]

theorem Covers.respects (h : B.Covers S) : B.lockstep.Respects S where
  prim p := by
    rintro c d ⟨rfl, -, -⟩
    match hp : (Interprets.prim p : Parser σ _) c with
    | none => exact .never
    | some ⟨.ok v, x⟩ => exact .ok ⟨rfl, rfl, h.moves p c _ hp⟩
    | some ⟨.error e, x⟩ => exact .error ⟨rfl, h.prim p hp⟩ ⟨rfl, rfl, h.moves p c _ hp⟩
  scope s v c d c' d' hcd := by
    obtain ⟨rfl, rfl, ha⟩ := hcd
    cases hv : Interprets.scope s c v c' with
    | ok w => exact .ok
    | error e => exact .error ⟨rfl, h.scope s v ha hv⟩

end Blame

theorem Grammar.Returns.blamed {σ ε α : Type} [Cursor σ ε] [Element ε] {K : Course σ} {B : Blame K}
    {S : Signature} [Interprets S σ] (h : B.Covers S) {g : Grammar ε S [] α} {c d : σ}
    {e : ParseError} (hr : g.Returns c ⟨.error e, d⟩) : B.Fault c e := by
  obtain ⟨r', -, hrep⟩ := hr.agree h.respects ⟨rfl, rfl, K.refl c⟩
  cases hrep with
  | error he _ => exact he.2

end Descent
