import Descent.Proofs.Course

/-!
# Corresponding cursors

Cursors of two kinds that stand at the same places, which the two kinds may count differently:
`Correspondence.relocate` takes the offsets of the first kind to those of the second, in failures as
well (`ParseError.relocate`). Main theorems `Correspondence.returns_right_on` and
`Correspondence.returns_left_on`: from places that correspond a grammar returns on the one side if it
does on the other, with the same value or the same failure up to its offsets, and at places that
correspond again.
-/

namespace Descent

namespace ParseError

mutual
/-- The failure with `f` applied to its offsets. -/
def relocate (f : Nat → Nat) : ParseError → ParseError
  | endOfInput offset => endOfInput (f offset)
  | predicate offset found message => predicate (f offset) found message
  | alternatives offset causes => alternatives (f offset) (relocateAll f causes)
  | expected label offset causes => expected label (f offset) (relocateAll f causes)
  | transform offset message => transform (f offset) message
  | named label inner => named label (inner.relocate f)
  | unparsed offset remaining => unparsed (f offset) remaining
  | nothingToUnread offset => nothingToUnread (f offset)
  | failure offset message => failure (f offset) message
  | lex error => lex error

def relocateAll (f : Nat → Nat) : List ParseError → List ParseError
  | [] => []
  | e :: es => e.relocate f :: relocateAll f es
end

theorem relocateAll_eq_map (f : Nat → Nat) : ∀ es : List ParseError,
    relocateAll f es = es.map (relocate f)
  | [] => rfl
  | e :: es => congrArg (e.relocate f :: ·) (relocateAll_eq_map f es)

mutual
@[simp] theorem relocate_id : ∀ e : ParseError, e.relocate id = e
  | endOfInput _ | predicate _ _ _ | transform _ _ | unparsed _ _ | nothingToUnread _
  | failure _ _ | lex _ => rfl
  | alternatives offset causes => congrArg (alternatives offset) (relocateAll_id causes)
  | expected label offset causes => congrArg (expected label offset) (relocateAll_id causes)
  | named label inner => congrArg (named label) (relocate_id inner)

theorem relocateAll_id : ∀ es : List ParseError, relocateAll id es = es
  | [] => rfl
  | e :: es => congrArg₂ List.cons (relocate_id e) (relocateAll_id es)
end

end ParseError

/-- Cursors of two kinds at the same places. -/
structure Correspondence (σ τ : Type) {ε : Type} [Cursor σ ε] [Cursor τ ε] where
  Rel : σ → τ → Prop
  /-- From offsets of the first kind to offsets of the second. -/
  relocate : Nat → Nat
  offset {c d} : Rel c d → Cursor.offset d = relocate (Cursor.offset c)
  /-- Offsets tell places apart. -/
  apart {c d c' d'} : Rel c d → Rel c' d' → Cursor.offset d' = Cursor.offset d →
    Cursor.offset c' = Cursor.offset c
  read {c d} : Rel c d →
    Option.Rel (fun r r' => r.1 = r'.1 ∧ Rel r.2 r'.2) (Cursor.read c) (Cursor.read d)
  unread {c d x c' d'} : Rel c d → Cursor.read c = some (some x, c') →
    Cursor.read d = some (some x, d') → Option.Rel Rel (Cursor.unread c') (Cursor.unread d')
  restore {c d c' d'} : Rel c d → Rel c' d' → Rel (Cursor.restore c' c) (Cursor.restore d' d)
  exhausted {c d} : Rel c d →
    Option.Rel (fun r r' => r.1 = r'.1 ∧ Rel r.2 r'.2) (Cursor.exhausted c) (Cursor.exhausted d)
  visit {c d} (cell : Nat) : Rel c d → Rel (Cursor.visit cell c) (Cursor.visit cell d)

namespace Correspondence

variable {σ τ ε α : Type} [Cursor σ ε] [Cursor τ ε] [Element ε] (C : Correspondence σ τ)

/-- Runs from places that correspond. -/
def lockstep : Lockstep σ τ where
  Reach c d c' d' := C.Rel c d ∧ C.Rel c' d'
  Fault _ _ e e' := e' = e.relocate C.relocate
  here h := ⟨h.2, h.2⟩
  trans h h' := ⟨h.1, h'.2⟩
  offset h := ⟨fun e => by rw [C.offset h.2, C.offset h.1, e], C.apart h.1 h.2⟩
  read {c d} h := by
    match Cursor.read c, Cursor.read d, C.read h.1 with
    | _, _, .none => exact .none
    | _, _, .some h' => exact .some ⟨h'.1, h.1, h'.2⟩
  unread {c d x c' d'} h hc hd := by
    match Cursor.unread c', Cursor.unread d', C.unread h.1 hc hd with
    | _, _, .none => exact .none
    | _, _, .some h' => exact .some ⟨h.1, h'⟩
  restore h := ⟨h.1, C.restore h.1 h.2⟩
  exhausted {c d} h := by
    match Cursor.exhausted c, Cursor.exhausted d, C.exhausted h.1 with
    | _, _, .none => exact .none
    | _, _, .some h' => exact .some ⟨h'.1, h.1, h'.2⟩
  visit cell h := ⟨h.1, C.visit cell h.1⟩
  later _ h := h
  endOfInput {c d c' d'} h hc hd := by
    have hr := C.read h.1
    rw [hc, hd] at hr
    cases hr with
    | some hr => rw [C.offset hr.2, ParseError.relocate]
  predicate _ h _ _ := by rw [C.offset h.1, ParseError.relocate]
  nothingToUnread {c d x c' d'} h hc hd _ _ := by
    have hr := C.read h.1
    rw [hc, hd] at hr
    cases hr with
    | some hr => rw [C.offset hr.2, ParseError.relocate]
  unparsed {c d x c' d' c'' d''} h hc hd _ _ := by
    have he := C.exhausted h.1
    rw [hc, hd] at he
    cases he with
    | some he => rw [C.offset he.2, ParseError.relocate]
  failure _ h := by rw [C.offset h.1, ParseError.relocate]
  transform _ h := by rw [C.offset h.1, ParseError.relocate]
  alternatives {c d e e' f f'} h he hf := by
    rw [C.offset h.1, he, hf, ParseError.relocate, ParseError.relocateAll_eq_map]
    rfl
  expected {c d es es'} label h hs := by
    have hs' : es' = es.map (ParseError.relocate C.relocate) := by
      induction hs with
      | nil => rfl
      | cons he _ ih => rw [he, ih, List.map_cons]
    rw [C.offset h.1, hs', ParseError.relocate, ParseError.relocateAll_eq_map]
  named label h := by rw [h, ParseError.relocate]

/-- The ends of runs from places that correspond. -/
def Ends (r : Reply σ α) (r' : Reply τ α) : Prop :=
  r'.result = r.result.mapError (ParseError.relocate C.relocate) ∧ C.Rel r.cursor r'.cursor

theorem ends_iff {c : σ} {d : τ} (h : C.Rel c d) {r : Reply σ α} {r' : Reply τ α} :
    C.lockstep.Replies c d (some r) (some r') ↔ C.Ends r r' := by
  obtain ⟨result, c'⟩ := r
  obtain ⟨result', d'⟩ := r'
  constructor
  · rintro (_ | h' | ⟨he, h'⟩)
    · exact ⟨rfl, h'.2⟩
    · exact ⟨congrArg Except.error he, h'.2⟩
  · rintro ⟨rfl, h'⟩
    cases result with
    | ok v => exact .ok ⟨h, h'⟩
    | error e => exact .error rfl ⟨h, h'⟩

/-- Parsers that do the same from places that correspond. -/
def Matches (p : Parser σ α) (q : Parser τ α) : Prop :=
  ∀ c d, C.Rel c d → Option.Rel C.Ends (p c) (q d)

/-- What a part of a signature does is the same from places that correspond. -/
structure RespectsOn {S : Signature} [Interprets S σ] [Interprets S τ] (P : S.Part) : Prop where
  prim {α : Type} {p : S.Prim α} : P.prim p → C.Matches (Interprets.prim p) (Interprets.prim p)
  scope {α β : Type} {s : S.Scope α β} (hs : P.scope s) (v : α) {c d c' d'} : C.Rel c d →
    C.Rel c' d' → Interprets.scope s d v d' =
      (Interprets.scope s c v c').mapError (ParseError.relocate C.relocate)

variable {C} {S : Signature} [Interprets S σ] [Interprets S τ] {P : S.Part} {c : σ} {d : τ}

omit [Element ε] in
theorem RespectsOn.plain (C : Correspondence σ τ) : C.RespectsOn (.all .plain) where
  prim {_ p} _ := nomatch p
  scope {_ _ s} _ := nomatch s

theorem RespectsOn.lockstep (h : C.RespectsOn P) : C.lockstep.RespectsOn P where
  prim {α p} hp c d hcd := by
    match hc : Interprets.prim p c, hd : Interprets.prim p d, h.prim hp c d hcd.1 with
    | _, _, .none => exact .never
    | _, _, .some he => exact (C.ends_iff hcd.1).2 he
  scope {α β s} hs v c d c' d' hcd := by
    have he := h.scope hs v hcd.1 hcd.2
    cases hv : Interprets.scope s c v c' with
    | ok w =>
      rw [he, hv]
      exact .ok
    | error e =>
      rw [he, hv]
      exact .error rfl

theorem RespectsOn.lockstep_symm (h : C.RespectsOn P) : C.lockstep.symm.RespectsOn P where
  prim {α p} hp d c hcd := by
    match hc : Interprets.prim p c, hd : Interprets.prim p d, h.prim hp c d hcd.1 with
    | _, _, .none => exact .never
    | _, _, .some he => exact Lockstep.Replies.swap (L := C.lockstep.symm) ((C.ends_iff hcd.1).2 he)
  scope {α β s} hs v d c d' c' hcd := by
    have he := h.scope hs v hcd.1 hcd.2
    cases hv : Interprets.scope s c v c' with
    | ok w =>
      rw [he, hv]
      exact .ok
    | error e =>
      rw [he, hv]
      exact .error rfl

section

variable {g : Grammar ε S [] α}

theorem returns_right_on (hS : C.RespectsOn P) (hg : g.Within P) (h : C.Rel c d) {r : Reply σ α}
    (hr : g.Returns c r) : ∃ r', g.Returns d r' ∧ C.Ends r r' := by
  obtain ⟨r', hr', ha⟩ := hr.agree_on hS.lockstep hg ⟨h, h⟩
  exact ⟨r', hr', (C.ends_iff h).1 ha⟩

theorem returns_left_on (hS : C.RespectsOn P) (hg : g.Within P) (h : C.Rel c d) {r' : Reply τ α}
    (hr' : g.Returns d r') : ∃ r, g.Returns c r ∧ C.Ends r r' := by
  obtain ⟨r, hr, ha⟩ := hr'.agree_on hS.lockstep_symm hg ⟨h, h⟩
  exact ⟨r, hr, (C.ends_iff h).1 ha.swap⟩

end

variable {g : Grammar ε .plain [] α}

theorem returns_right (h : C.Rel c d) {r : Reply σ α} (hr : g.Returns c r) :
    ∃ r', g.Returns d r' ∧ C.Ends r r' :=
  returns_right_on (.plain C) g.within_all h hr

theorem returns_left (h : C.Rel c d) {r' : Reply τ α} (hr' : g.Returns d r') :
    ∃ r, g.Returns c r ∧ C.Ends r r' :=
  returns_left_on (.plain C) g.within_all h hr'

end Correspondence
end Descent
