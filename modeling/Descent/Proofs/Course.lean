import Descent.Proofs.Lockstep

/-!
# The course of a run

What relates the end of a run to its beginning: `Course.Ahead c d` says that a run which begins at
`c` may end at `d`. Main theorem `Grammar.run_ahead`: if every movement of the cursor goes ahead in
this sense, every run of every grammar does, whether it succeeds or fails. In particular a run that
goes nowhere in particular keeps its result when it is given more fuel (`Grammar.run_le`), so that
`Grammar.Returns`, the result with any fuel, is at most one (`Grammar.Returns.unique`).
-/

namespace Descent

/-- Where a run can get to. -/
structure Course (σ : Type) {ε : Type} [Cursor σ ε] where
  Ahead : σ → σ → Prop
  refl (c : σ) : Ahead c c
  trans {c d e : σ} : Ahead c d → Ahead d e → Ahead c e
  read {c d : σ} {x : Option ε} : Cursor.read c = some (x, d) → Ahead c d
  unread {c d b : σ} {x : ε} : Cursor.read c = some (some x, d) → Cursor.unread d = some b →
    Ahead c b
  restore {c d : σ} : Ahead c d → Ahead c (Cursor.restore d c)
  exhausted {c d : σ} {b : Bool} : Cursor.exhausted c = some (b, d) → Ahead c d
  visit (cell : Nat) (c : σ) : Ahead c (Cursor.visit cell c)

namespace Course

variable {σ ε α β : Type} [Cursor σ ε] [Element ε]

def anywhere : Course σ where
  Ahead _ _ := True
  refl _ := trivial
  trans _ _ := trivial
  read _ := trivial
  unread _ _ := trivial
  restore _ := trivial
  exhausted _ := trivial
  visit _ _ := trivial

def lockstep (K : Course σ) : Lockstep σ σ where
  Reach c d c' d' := c = d ∧ c' = d' ∧ K.Ahead c c'
  Fault _ _ e f := e = f
  here h := ⟨h.2.1, h.2.1, K.refl _⟩
  trans h h' := ⟨h.1, h'.2.1, K.trans h.2.2 h'.2.2⟩
  offset h := by rw [h.1, h.2.1]
  read {c d} h := by
    obtain ⟨rfl, -, -⟩ := h
    cases hc : Cursor.read c with
    | none => exact .none
    | some r => exact .some ⟨rfl, rfl, rfl, K.read hc⟩
  unread {c d x c' d'} h hc hd := by
    obtain ⟨rfl, -, -⟩ := h
    cases hc.symm.trans hd
    cases hb : Cursor.unread c' with
    | none => exact .none
    | some b => exact .some ⟨rfl, rfl, K.unread hc hb⟩
  restore h := ⟨h.1, by rw [h.1, h.2.1], K.restore h.2.2⟩
  exhausted {c d} h := by
    obtain ⟨rfl, -, -⟩ := h
    cases hc : Cursor.exhausted c with
    | none => exact .none
    | some r => exact .some ⟨rfl, rfl, rfl, K.exhausted hc⟩
  visit cell h := ⟨h.1, by rw [h.1], K.visit cell _⟩
  later _ h := h
  endOfInput h hc hd := by
    cases h.1
    cases hc.symm.trans hd
    rfl
  predicate _ h _ _ := by rw [h.1]
  nothingToUnread h hc hd _ _ := by
    cases h.1
    cases hc.symm.trans hd
    rfl
  unparsed h hc hd hc' hd' := by
    cases h.1
    cases hc.symm.trans hd
    cases hc'.symm.trans hd'
    rfl
  failure _ h := by rw [h.1]
  transform _ h := by rw [h.1]
  alternatives h he hf := by rw [h.1, he, hf]
  expected _ h hs := by
    rw [List.forall₂_eq_eq_eq] at hs
    rw [h.1, hs]
  named _ h := by rw [h]

/-- Every run of `p` goes ahead. -/
def Moves (K : Course σ) (p : Parser σ α) : Prop := ∀ c r, p c = some r → K.Ahead c r.cursor

theorem agree_iff {K : Course σ} {p q : Parser σ α} :
    K.lockstep.Agree p q ↔ ∀ c r, p c = some r → q c = some r ∧ K.Ahead c r.cursor := by
  constructor
  · intro h c r hr
    have hc := h c c ⟨rfl, rfl, K.refl c⟩
    rw [hr] at hc
    match hq : q c, hc with
    | _, .ok h' => exact ⟨by rw [h'.2.1], h'.2.2⟩
    | _, .error (e := e) (f := f) he h' =>
      have he : e = f := he
      exact ⟨by rw [h'.2.1, he], h'.2.2⟩
  · rintro h c d ⟨rfl, -, -⟩
    match hp : p c with
    | none => exact .never
    | some ⟨.ok v, c'⟩ =>
      obtain ⟨hq, h'⟩ := h c _ hp
      rw [hq]
      exact .ok ⟨rfl, rfl, h'⟩
    | some ⟨.error e, c'⟩ =>
      obtain ⟨hq, h'⟩ := h c _ hp
      rw [hq]
      exact .error rfl ⟨rfl, rfl, h'⟩

theorem moves_iff {K : Course σ} {p : Parser σ α} : K.Moves p ↔ K.lockstep.Agree p p :=
  ⟨fun h => agree_iff.2 fun c r hr => ⟨hr, h c r hr⟩, fun h c r hr => (agree_iff.1 h c r hr).2⟩

theorem Moves.right {K : Course σ} {p : Parser σ α} {q : Parser σ β} (hp : K.Moves p)
    (hq : K.Moves q) : K.Moves (p.right q) :=
  moves_iff.2 ((moves_iff.1 hp).right (moves_iff.1 hq))

theorem Moves.pair {K : Course σ} {p : Parser σ α} {q : Parser σ β} (hp : K.Moves p)
    (hq : K.Moves q) : K.Moves (p.pair q) :=
  moves_iff.2 ((moves_iff.1 hp).pair (moves_iff.1 hq))

theorem respects {K : Course σ} {S : Signature} [Interprets S σ]
    (h : ∀ {α : Type} (p : S.Prim α), K.Moves (Interprets.prim p)) : K.lockstep.Respects S where
  prim p := agree_iff.2 fun c r hr => ⟨hr, h p c r hr⟩
  scope s v c d c' d' h := by
    obtain ⟨rfl, rfl, -⟩ := h
    cases Interprets.scope s c v c' with
    | ok w => exact .ok
    | error e => exact .error rfl

end Course

namespace Grammar

variable {σ τ ε α : Type} {S : Signature} {Γ : List Type} [Cursor σ ε] [Cursor τ ε] [Element ε]
  [Interprets S σ] [Interprets S τ]

/-- If the bound parsers go ahead, so does every run of a grammar over them. -/
theorem run_ahead {K : Course σ} (hS : ∀ {β : Type} (p : S.Prim β), K.Moves (Interprets.prim p))
    {n : Nat} (g : Grammar ε S Γ α) {ρ : Env σ Γ}
    (hρ : ∀ {β : Type} (v : Var Γ β), K.Moves (ρ v)) : K.Moves (run n g ρ) := by
  refine Course.moves_iff.2 (run_agree (Course.respects hS) (Nat.le_refl n) g fun v => ?_)
  exact Course.moves_iff.1 (hρ v)

/-- A run that has ended ends the same way with more fuel, and with bound parsers that go on
longer. -/
theorem run_le {n m : Nat} (hnm : n ≤ m) (g : Grammar ε S Γ α) {ρ ρ' : Env σ Γ}
    (hρ : ∀ {β : Type} (v : Var Γ β) c r, ρ v c = some r → ρ' v c = some r) {c : σ}
    {r : Reply σ α} (h : run n g ρ c = some r) : run m g ρ' c = some r := by
  have hS := Course.respects (K := Course.anywhere) (S := S) (σ := σ) fun _ _ _ _ => trivial
  have ha : Course.anywhere.lockstep.Agree (run n g ρ) (run m g ρ') :=
    run_agree hS hnm g fun v => Course.agree_iff.2 fun c r hr => ⟨hρ v c r hr, trivial⟩
  exact (Course.agree_iff.1 ha c r h).1

/-- A definition that may be entered fewer times, and with less fuel, ends the same way if it
ends. -/
theorem fixpoint_le {n m depth depth' : Nat} (hnm : n ≤ m) (hd : depth ≤ depth') (cell : Nat)
    (g : Grammar ε S (α :: Γ) α) {ρ ρ' : Env σ Γ}
    (hρ : ∀ {β : Type} (v : Var Γ β) c r, ρ v c = some r → ρ' v c = some r) {c : σ}
    {r : Reply σ α} (h : Parser.fixpoint (fun self c => run n g (Env.cons self ρ)
      (Cursor.visit cell c)) depth c = some r) :
    Parser.fixpoint (fun self c => run m g (Env.cons self ρ') (Cursor.visit cell c)) depth' c =
      some r := by
  refine (Course.agree_iff.1 (Lockstep.Agree.fixpoint (L := Course.anywhere.lockstep)
    (fun {p q} hpq => Course.agree_iff.2 fun c r hr => ⟨?_, trivial⟩) hd) c r h).1
  refine run_le hnm g (fun v c r hv => ?_) hr
  cases v with
  | here => exact (Course.agree_iff.1 hpq c r hv).1
  | there v => exact hρ v c r hv

/-- Run from `c`, the grammar ends with `r`. -/
def Returns (g : Grammar ε S [] α) (c : σ) (r : Reply σ α) : Prop := ∃ n, g.parser n c = some r

theorem parser_le {n m : Nat} (hnm : n ≤ m) {g : Grammar ε S [] α} {c : σ} {r : Reply σ α}
    (h : g.parser n c = some r) : g.parser m c = some r := run_le hnm g (fun _ _ _ h => h) h

/-- Fuel decides whether a run ends, and not how. -/
theorem Returns.unique {g : Grammar ε S [] α} {c : σ} {r r' : Reply σ α} :
    g.Returns c r → g.Returns c r' → r = r'
  | ⟨n, h⟩, ⟨m, h'⟩ => by
    have h₁ := parser_le (Nat.le_max_left n m) h
    have h₂ := parser_le (Nat.le_max_right n m) h'
    exact Option.some.inj (h₁.symm.trans h₂)

/-- Where two runs agree, the second one ends if the first does. -/
theorem Returns.agree_on {L : Lockstep σ τ} {P : S.Part} (hS : L.RespectsOn P)
    {g : Grammar ε S [] α} (hg : g.Within P) {c : σ} {d : τ} (h : L.Reach c d c d)
    {r : Reply σ α} :
    g.Returns c r → ∃ r', g.Returns d r' ∧ L.Replies c d (some r) (some r')
  | ⟨n, hr⟩ => by
    have ha : L.Replies c d (g.parser n c) (g.parser n d) :=
      run_agree_on hS (Nat.le_refl n) g hg (fun v => nomatch v) c d h
    rw [hr] at ha
    match hd : g.parser n d, ha with
    | _, .ok h' => exact ⟨_, ⟨n, hd⟩, .ok h'⟩
    | _, .error he h' => exact ⟨_, ⟨n, hd⟩, .error he h'⟩

theorem Returns.agree {L : Lockstep σ τ} (hS : L.Respects S) {g : Grammar ε S [] α} {c : σ} {d : τ}
    (h : L.Reach c d c d) {r : Reply σ α} (hr : g.Returns c r) :
    ∃ r', g.Returns d r' ∧ L.Replies c d (some r) (some r') :=
  hr.agree_on (hS.on _) g.within_all h

theorem Returns.ahead {K : Course σ} (hS : ∀ {β : Type} (p : S.Prim β), K.Moves (Interprets.prim p))
    {g : Grammar ε S [] α} {c : σ} {r : Reply σ α} : g.Returns c r → K.Ahead c r.cursor
  | ⟨_, hr⟩ => run_ahead hS g (fun v => nomatch v) c r hr

end Grammar

/-- The cursors that reading, going back, checkpoints and runs can make out of `start`. -/
inductive Reachable {σ ε : Type} (S : Signature) [Cursor σ ε] [Element ε] [Interprets S σ]
    (start : σ) : σ → Prop
  | start : Reachable S start start
  | read {c d x} : Reachable S start c → Cursor.read c = some (x, d) → Reachable S start d
  | unread {c d} : Reachable S start c → Cursor.unread c = some d → Reachable S start d
  | restore {now earlier} : Reachable S start now → Reachable S start earlier →
    Reachable S start (Cursor.restore now earlier)
  | exhausted {c d b} : Reachable S start c → Cursor.exhausted c = some (b, d) →
    Reachable S start d
  | visit {c} (cell : Nat) : Reachable S start c → Reachable S start (Cursor.visit cell c)
  | run {c} {α : Type} {g : Grammar ε S [] α} {r : Reply σ α} : Reachable S start c →
    g.Returns c r → Reachable S start r.cursor

end Descent
