import Descent.Grammar.Text
import Descent.Proofs.Requests
import Mathlib.Logic.Function.Basic
import Mathlib.Logic.Relation

/-!
# A grammar in shared use: `FixCell::get` / `Fix` / `FixRef`

All copies of a grammar share its cells. `Sharing` are the states of any number of workers that use a
grammar at once. What a worker does between two looks at cells concerns nobody else. To come to a
cell (`Fix::parse`, `FixRef::parse`, `Fix::name`) and to look into it (`FixCell::get`, which calls
the function of the cell if nothing is there) are steps of their own, and the steps of the workers
may come in any order.

Main theorem `sharing_unobservable`: no function is called twice, or before a worker has come to its
cell, and every worker gets the answer that it would get from a copy of the grammar of its own. None
of this is built into the steps. A look finds what is in the cell, and a run goes on with what has
been found; it follows from what has happened before (`Sharing.Proper`).
-/

namespace Descent

variable {σ ε α : Type} {S : Signature} {L : Nat → Type}

/-! ## Runs step by step -/

/-- The world of a run that other runs come between: the cells that it has looked at so far with what
it has found in them, and the first cell after those. From there on it runs as if it were alone. -/
structure Asking where
  found : List (Nat × Nat)
  next : Option Nat

namespace Asking

def get (P : Definitions ε S L) (cell : Nat) : Asking → Nat × Asking
  | ⟨(x, k) :: found, none⟩ => (if x = cell then k else P.built cell, ⟨found, none⟩)
  | ⟨[], none⟩ => (P.built cell, ⟨[], some cell⟩)
  | w => (P.built cell, w)

/-- What has been found is what the functions of the cells build. -/
def Honest (P : Definitions ε S L) (found : List (Nat × Nat)) : Prop :=
  ∀ x ∈ found, x.2 = P.built x.1

variable {P : Definitions ε S L}

theorem truthful : ∀ {w : Asking}, Honest P w.found → P.Truthful (get P) w := by
  have hlook : ∀ {w : Asking} (cell : Nat), Honest P w.found →
      (get P cell w).1 = P.built cell ∧ Honest P (get P cell w).2.found := by
    rintro ⟨_ | ⟨⟨x, k⟩, found⟩, _ | next⟩ cell h
    · exact ⟨rfl, h⟩
    · exact ⟨rfl, h⟩
    · obtain ⟨hk, hfound⟩ := List.forall_mem_cons.1 h
      refine ⟨?_, hfound⟩
      dsimp only [get]
      split
      · next hx => exact hx ▸ hk
      · rfl
    · exact ⟨rfl, h⟩
  intro w h cells
  induction cells generalizing w with
  | nil => exact fun cell => (hlook cell h).1
  | cons cell cells ih => exact ih (hlook cell h).2

theorem after_next (cells : List Nat) (cell : Nat) (found : List (Nat × Nat)) :
    Amid.after (onward (get P)) cells ⟨found, some cell⟩ = ⟨found, some cell⟩ := by
  induction cells with
  | nil => rfl
  | cons _ cells ih => cases found <;> exact ih

theorem next_after (cells : List Nat) (found : List (Nat × Nat)) :
    (Amid.after (onward (get P)) cells ⟨found, none⟩).next = cells[found.length]? := by
  induction cells generalizing found with
  | nil => rfl
  | cons cell cells ih =>
    cases found with
    | nil => exact congrArg next (after_next cells cell [])
    | cons x found => exact ih found

end Asking

/-- What a worker does next. -/
inductive Turn (σ α : Type)
  | look (cell : Nat)
  | done (a : Answer σ α) (entries : List Record)

section

variable [Cursor σ ε] [Element ε] [Interprets S σ] (P : Definitions ε S L) {g : Grammar ε S [] α}
  {l : Linked ε S L α} {q : Request σ} {a : Answer σ α}

namespace Definitions

/-- What a worker does next that has asked `q` and has found this so far. -/
def turn (logged : Bool) (n : Nat) (l : Linked ε S L α) (q : Request σ)
    (found : List (Nat × Nat)) : Option (Turn σ α) :=
  (P.serve (Asking.get P) logged n l q ⟨found, none⟩).map fun r =>
    r.2.next.elim (.done r.1.1 r.1.2) .look

/-- With the fuel `n` a worker looks at these cells, and then has the answer. -/
def Answers (logged : Bool) (n : Nat) (l : Linked ε S L α) (q : Request σ) (cells : List Nat)
    (a : Answer σ α) (entries : List Record) : Prop :=
  ∀ found, Asking.Honest P found → P.turn logged n l q found =
    some (cells[found.length]?.elim (.done a entries) .look)

variable {P} {logged : Bool} {m : Nat}

theorem answers_of_serve {cells : List Nat} {entries : List Record}
    (h : ∀ w, P.Truthful (Asking.get P) w → P.serve (Asking.get P) logged m l q w =
      some ((a, entries), Amid.after (onward (Asking.get P)) cells w)) :
    P.Answers logged m l q cells a entries := by
  intro found hf
  rw [turn, h _ (Asking.truthful hf), Option.map_some, Asking.next_after]

theorem Links.answers (h : P.Links .nil g l) (logged : Bool) {n : Nat} (ha : q.answer n g = some a) :
    ∃ m, P.Answers logged m l q (q.looks n g ++ a.naming logged g) a (a.entries logged g) :=
  (h.serves logged ha).ends.exists.imp fun _ => answers_of_serve

theorem Links.of_turn (h : P.Links .nil g l) (ht : (P.turn logged m l q []).isSome) :
    ∃ n a, q.answer n g = some a ∧
      P.Answers logged m l q (q.looks n g ++ a.naming logged g) a (a.entries logged g) := by
  have hnil : P.Truthful (Asking.get P) ⟨[], none⟩ := Asking.truthful (List.forall_mem_nil _)
  rw [turn, Option.isSome_map] at ht
  obtain ⟨⟨x, w⟩, hx⟩ := Option.isSome_iff_exists.1 ht
  obtain ⟨n, a, ha⟩ := h.of_serve hnil hx
  have hserves : P.Yields (Asking.get P) _ _ _ := h.serves logged ha
  rcases hserves.uniform m with hm | hm
  · cases (hm _ hnil).symm.trans hx
  · exact ⟨n, a, ha, answers_of_serve hm⟩

end Definitions

end

/-! ## Many users -/

inductive Worker (σ α : Type)
  | idle
  /-- Has asked `q`, with fuel `n`, and has found this in cells so far. -/
  | busy (n : Nat) (q : Request σ) (found : List (Nat × Nat))
  /-- In a parse that never ends. -/
  | lost

/-- What is in a cell has been found. -/
def Worker.find (cell k : Nat) : Worker σ α → Worker σ α
  | busy n q found => busy n q (found ++ [(cell, k)])
  | w => w

/-- What happens to a cell. -/
inductive Incident
  /-- A worker comes to parse with it, or to ask for its name. -/
  | used (i cell : Nat)
  /-- Its function is called. -/
  | called (cell : Nat)

/-- A grammar in use by any number of workers. -/
structure Sharing (σ α : Type) where
  logged : Bool
  /-- What the cells hold. -/
  content : Nat → Option Nat
  /-- The log, latest first. -/
  log : List Record
  /-- What has happened to the cells, latest first. -/
  history : List Incident
  /-- The cell that a worker has come to and not looked into yet. -/
  stands : Nat → Option Nat
  worker : Nat → Worker σ α
  /-- What each worker has asked and been answered, latest first. -/
  answered : Nat → List (Request σ × Answer σ α)

namespace Sharing

def new (logged : Bool) : Sharing σ α where
  logged := logged
  content _ := none
  log := []
  history := []
  stands _ := none
  worker _ := .idle
  answered _ := []

/-- The cells whose functions have been called, latest first. -/
def calls (m : Sharing σ α) : List Nat :=
  m.history.filterMap fun
    | .called cell => some cell
    | .used _ _ => none

/-- What has happened, as the session of a single user has it. -/
def session (m : Sharing σ α) : Session := ⟨m.logged, m.calls, m.log⟩

def put (i : Nat) (w : Worker σ α) (m : Sharing σ α) : Sharing σ α :=
  { m with worker := Function.update m.worker i w }

/-- A worker comes to a cell. -/
def use (i cell : Nat) (m : Sharing σ α) : Sharing σ α :=
  { m with
    history := .used i cell :: m.history
    stands := Function.update m.stands i (some cell) }

/-- If there is nothing in the cell, its function is called (`OnceLock::get_or_init`). -/
def fill (P : Definitions ε S L) (cell : Nat) (m : Sharing σ α) : Sharing σ α :=
  match m.content cell with
  | some _ => m
  | none =>
    { m with
      content := Function.update m.content cell (some (P.built cell))
      log := if m.logged then .building :: m.log else m.log
      history := .called cell :: m.history }

/-- The worker has found this in the cell. -/
def find (i cell k : Nat) (m : Sharing σ α) : Sharing σ α :=
  { m.put i ((m.worker i).find cell k) with stands := Function.update m.stands i none }

def finish (i : Nat) (q : Request σ) (a : Answer σ α) (entries : List Record) (m : Sharing σ α) :
    Sharing σ α :=
  { m.put i .idle with
    log := entries ++ m.log
    answered := Function.update m.answered i ((q, a) :: m.answered i) }

/-- To come to a cell and to go on with what is in it, before anybody else does anything. -/
def pass (P : Definitions ε S L) (i cell : Nat) (m : Sharing σ α) : Sharing σ α :=
  ((m.use i cell).fill P cell).find i cell (P.built cell)

section

variable {P : Definitions ε S L} {m : Sharing σ α} {i j cell k : Nat} {w : Worker σ α}

@[simp] theorem put_worker_self : (m.put i w).worker i = w := Function.update_self ..

theorem put_worker_of_ne (h : j ≠ i) : (m.put i w).worker j = m.worker j :=
  Function.update_of_ne h ..

@[simp] theorem use_stands_self : (m.use i cell).stands i = some cell := Function.update_self ..

theorem use_stands_of_ne (h : j ≠ i) : (m.use i cell).stands j = m.stands j :=
  Function.update_of_ne h ..

@[simp] theorem find_stands_self : (m.find i cell k).stands i = none := Function.update_self ..

theorem find_stands_of_ne (h : j ≠ i) : (m.find i cell k).stands j = m.stands j :=
  Function.update_of_ne h ..

@[simp] theorem find_worker_self : (m.find i cell k).worker i = (m.worker i).find cell k :=
  Function.update_self ..

theorem find_worker_of_ne (h : j ≠ i) : (m.find i cell k).worker j = m.worker j :=
  Function.update_of_ne h ..

@[simp] theorem fill_logged : (m.fill P cell).logged = m.logged := by
  unfold fill
  split <;> rfl

@[simp] theorem fill_stands : (m.fill P cell).stands = m.stands := by
  unfold fill
  split <;> rfl

@[simp] theorem fill_worker : (m.fill P cell).worker = m.worker := by
  unfold fill
  split <;> rfl

@[simp] theorem fill_answered : (m.fill P cell).answered = m.answered := by
  unfold fill
  split <;> rfl

theorem fill_of_some (hk : m.content cell = some k) : m.fill P cell = m := by
  rw [fill, hk]

theorem fill_of_none (hk : m.content cell = none) : m.fill P cell =
    { m with
      content := Function.update m.content cell (some (P.built cell))
      log := if m.logged then .building :: m.log else m.log
      history := .called cell :: m.history } := by
  rw [fill, hk]

theorem pass_logged : (m.pass P i cell).logged = m.logged := fill_logged (m := m.use i cell)

theorem pass_worker : (m.pass P i cell).worker =
    Function.update m.worker i ((m.worker i).find cell (P.built cell)) := by
  have hfill : ((m.use i cell).fill P cell).worker = m.worker := fill_worker
  simp only [pass, find, put, hfill]

theorem pass_answered : (m.pass P i cell).answered = m.answered :=
  fill_answered (m := m.use i cell)

end

variable [Cursor σ ε] [Element ε] [Interprets S σ]

/-- What one of the workers may do next. A parse that never ends may come to any cells. -/
inductive Step (P : Definitions ε S L) (l : Linked ε S L α) : Sharing σ α → Sharing σ α → Prop
  | ask {m i n q} : m.worker i = .idle → (P.turn m.logged n l q []).isSome →
    Step P l m (m.put i (.busy n q []))
  | stray {m i} {c : σ} : m.worker i = .idle →
    (∀ n, P.turn m.logged n l (.parse c) [] = none) → Step P l m (m.put i .lost)
  | use {m i n q found cell} : m.worker i = .busy n q found → m.stands i = none →
    P.turn m.logged n l q found = some (.look cell) → Step P l m (m.use i cell)
  | wander {m i cell} : m.worker i = .lost → m.stands i = none → Step P l m (m.use i cell)
  | get {m i cell k} : m.stands i = some cell → (m.fill P cell).content cell = some k →
    Step P l m ((m.fill P cell).find i cell k)
  | done {m i n q found a entries} : m.worker i = .busy n q found → m.stands i = none →
    P.turn m.logged n l q found = some (.done a entries) → Step P l m (m.finish i q a entries)

/-- Any steps of the workers, one after the other. -/
abbrev Steps (P : Definitions ε S L) (l : Linked ε S L α) : Sharing σ α → Sharing σ α → Prop :=
  Relation.ReflTransGen (Step P l)

/-! ## What has happened before -/

/-- A worker has asked `q` and is on its way to the answer: it has looked at some cells, has come to
the next one if it stands at any, and found what their functions build. -/
def Underway (P : Definitions ε S L) (g : Grammar ε S [] α) (l : Linked ε S L α) (logged : Bool)
    (n : Nat) (q : Request σ) (found : List (Nat × Nat)) (stands : Option Nat) : Prop :=
  Asking.Honest P found ∧ ∃ n' a rest, q.answer n' g = some a ∧
    P.Answers logged n l q (found.map Prod.fst ++ rest) a (a.entries logged g) ∧
    ∀ cell ∈ stands, rest.head? = some cell

/-- What the steps of the workers keep. -/
structure Proper (P : Definitions ε S L) (g : Grammar ε S [] α) (l : Linked ε S L α)
    (m : Sharing σ α) : Prop where
  content {cell k} : m.content cell = some k → k = P.built cell
  called (cell : Nat) : cell ∈ m.calls ↔ (m.content cell).isSome
  once : m.calls.Nodup
  stands {i cell} : m.stands i = some cell → .used i cell ∈ m.history
  needed {cell earlier} : .called cell :: earlier <:+ m.history → ∃ i, .used i cell ∈ earlier
  idle {i} : m.worker i = .idle → m.stands i = none
  busy {i n q found} : m.worker i = .busy n q found →
    Underway P g l m.logged n q found (m.stands i)
  answered {i q a} : (q, a) ∈ m.answered i → a.Fresh g q

variable {P : Definitions ε S L} {g : Grammar ε S [] α} {l : Linked ε S L α} {m m' : Sharing σ α}
  {i cell k : Nat} {q : Request σ} {a : Answer σ α}

theorem Proper.new (logged : Bool) : Proper P g l (.new logged : Sharing σ α) where
  content := nofun
  called _ := by simp [calls, Sharing.new]
  once := List.nodup_nil
  stands := nofun
  needed h := by simp [Sharing.new] at h
  idle _ := rfl
  busy := nofun
  answered := nofun

/-- A worker that stands at no cell goes over to something else. -/
theorem Proper.put {w : Worker σ α} (h : Proper P g l m) (hi : m.stands i = none)
    (hw : ∀ {n q found}, w = .busy n q found → Underway P g l m.logged n q found none) :
    Proper P g l (m.put i w) where
  content := h.content
  called := h.called
  once := h.once
  stands := h.stands
  needed := h.needed
  idle {j} hj := by
    by_cases hji : j = i
    · exact hji ▸ hi
    · rw [put_worker_of_ne hji] at hj
      exact h.idle hj
  busy {j n q found} hj := by
    by_cases hji : j = i
    · subst hji
      rw [put_worker_self] at hj
      rw [show (m.put j w).stands j = none from hi]
      exact hw hj
    · rw [put_worker_of_ne hji] at hj
      exact h.busy hj
  answered := h.answered

/-- A worker comes to a cell. -/
theorem Proper.use (h : Proper P g l m) (hi : m.worker i ≠ .idle)
    (hw : ∀ {n q found}, m.worker i = .busy n q found →
      Underway P g l m.logged n q found (some cell)) : Proper P g l (m.use i cell) where
  content := h.content
  called := h.called
  once := h.once
  stands {j x} hj := by
    by_cases hji : j = i
    · subst hji
      rw [use_stands_self] at hj
      cases hj
      exact List.mem_cons_self
    · rw [use_stands_of_ne hji] at hj
      exact List.mem_cons_of_mem _ (h.stands hj)
  needed {x earlier} hx := by
    rcases List.suffix_cons_iff.1 hx with hx | hx
    · cases hx
    · exact h.needed hx
  idle {j} hj := by
    have hji : j ≠ i := fun hji => hi (hji ▸ hj)
    rw [use_stands_of_ne hji]
    exact h.idle hj
  busy {j n q found} hj := by
    by_cases hji : j = i
    · subst hji
      rw [use_stands_self]
      exact hw hj
    · rw [use_stands_of_ne hji]
      exact h.busy hj
  answered := h.answered

/-- The function of a cell is called only if it has not been, and somebody stands there. -/
theorem Proper.fill (h : Proper P g l m) (hi : m.stands i = some cell) :
    Proper P g l (m.fill P cell) := by
  cases hk : m.content cell with
  | some k =>
    rw [fill_of_some hk]
    exact h
  | none =>
    have hcell : cell ∉ m.calls := by
      rw [h.called, hk]
      exact Bool.false_ne_true
    have hcalls (x : Nat) : x ∈ cell :: m.calls ↔
        (Function.update m.content cell (some (P.built cell)) x).isSome := by
      rw [List.mem_cons, h.called]
      by_cases hxc : x = cell <;> simp [hxc]
    rw [fill_of_none hk]
    exact {
      content := fun {x y} hx => by
        by_cases hxc : x = cell
        · subst hxc
          simpa using hx.symm
        · exact h.content (by simpa [hxc] using hx)
      called := hcalls
      once := List.nodup_cons.2 ⟨hcell, h.once⟩
      stands := fun hj => List.mem_cons_of_mem _ (h.stands hj)
      needed := fun {x earlier} hx => by
        rcases List.suffix_cons_iff.1 hx with hx | hx
        · cases hx
          exact ⟨i, h.stands hi⟩
        · exact h.needed hx
      idle := h.idle
      busy := h.busy
      answered := h.answered }

theorem Underway.find {logged : Bool} {n : Nat} {found : List (Nat × Nat)}
    (h : Underway P g l logged n q found (some cell)) (hk : k = P.built cell) :
    Underway P g l logged n q (found ++ [(cell, k)]) none := by
  obtain ⟨hf, n', a, rest, ha, hanswers, hrest⟩ := h
  obtain ⟨rest, rfl⟩ : ∃ rest', rest = cell :: rest' :=
    List.head?_eq_some_iff.1 (hrest cell rfl)
  refine ⟨?_, n', a, rest, ha, by simpa using hanswers, by simp⟩
  intro x hx
  rcases List.mem_append.1 hx with hx | hx
  · exact hf x hx
  · obtain rfl := List.mem_singleton.1 hx
    exact hk

/-- A worker goes on with what is in the cell where it stands. -/
theorem Proper.find (h : Proper P g l m) (hi : m.stands i = some cell)
    (hk : m.content cell = some k) : Proper P g l (m.find i cell k) where
  content := h.content
  called := h.called
  once := h.once
  stands {j x} hj := by
    by_cases hji : j = i
    · subst hji
      simp at hj
    · rw [find_stands_of_ne hji] at hj
      exact h.stands hj
  needed := h.needed
  idle {j} hj := by
    by_cases hji : j = i
    · subst hji
      exact find_stands_self
    · rw [find_worker_of_ne hji] at hj
      rw [find_stands_of_ne hji]
      exact h.idle hj
  busy {j n q found} hj := by
    by_cases hji : j = i
    · subst hji
      rw [find_worker_self] at hj
      rw [find_stands_self]
      match hw : m.worker j with
      | .busy n q found =>
        have hu := h.busy hw
        rw [hi] at hu
        rw [hw] at hj
        cases hj
        exact hu.find (h.content hk)
      | .idle | .lost =>
        rw [hw] at hj
        cases hj
    · rw [find_worker_of_ne hji] at hj
      rw [find_stands_of_ne hji]
      exact h.busy hj
  answered := h.answered

theorem Proper.finish {entries : List Record} (h : Proper P g l m) (hi : m.stands i = none)
    (ha : a.Fresh g q) : Proper P g l (m.finish i q a entries) where
  content := h.content
  called := h.called
  once := h.once
  stands := h.stands
  needed := h.needed
  idle := (h.put (w := .idle) hi nofun).idle
  busy := (h.put (w := .idle) hi nofun).busy
  answered {j q' a'} hj := by
    have hj : (q', a') ∈ Function.update m.answered i ((q, a) :: m.answered i) j := hj
    by_cases hji : j = i
    · subst hji
      rw [Function.update_self] at hj
      rcases List.mem_cons.1 hj with hq | hj
      · cases hq
        exact ha
      · exact h.answered hj
    · rw [Function.update_of_ne hji] at hj
      exact h.answered hj

/-- A turn is what the worker's way to its answer says. -/
theorem Underway.turn {logged : Bool} {n : Nat} {found : List (Nat × Nat)}
    (h : Underway P g l logged n q found none) : ∃ n' a, q.answer n' g = some a ∧
      ((∃ cell, P.turn logged n l q found = some (.look cell) ∧
          Underway P g l logged n q found (some cell)) ∨
        P.turn logged n l q found = some (.done a (a.entries logged g))) := by
  obtain ⟨hf, n', a, rest, ha, hanswers, -⟩ := h
  have hturn := hanswers found hf
  refine ⟨n', a, ha, ?_⟩
  cases rest with
  | nil => exact .inr (by simpa using hturn)
  | cons cell rest =>
    refine .inl ⟨cell, by simpa using hturn, hf, n', a, _, ha, hanswers, ?_⟩
    simp

theorem Proper.step (hl : P.Links .nil g l) (h : Proper P g l m) (hs : Step P l m m') :
    Proper P g l m' := by
  cases hs with
  | @ask i n q hi ht =>
    refine h.put (h.idle hi) fun hw => ?_
    cases hw
    obtain ⟨n', a, ha, hanswers⟩ := hl.of_turn ht
    exact ⟨List.forall_mem_nil _, n', a, _, ha, hanswers, by simp⟩
  | stray hi _ => exact h.put (h.idle hi) nofun
  | use hi hs ht =>
    refine h.use (by simp [hi]) fun hw => ?_
    cases hi.symm.trans hw
    have hu := h.busy hi
    rw [hs] at hu
    obtain ⟨_, _, _, ⟨cell, hcell, hu⟩ | hdone⟩ := hu.turn
    · cases ht.symm.trans hcell
      exact hu
    · cases ht.symm.trans hdone
  | wander hi _ => exact h.use (by simp [hi]) fun hw => by cases hi.symm.trans hw
  | get hi hk => exact (h.fill hi).find (by rwa [fill_stands]) hk
  | done hi hs ht =>
    have hu := h.busy hi
    rw [hs] at hu
    obtain ⟨n', a, ha, ⟨cell, hcell, -⟩ | hdone⟩ := hu.turn
    · cases ht.symm.trans hcell
    · cases ht.symm.trans hdone
      exact h.finish hs (Answer.fresh_iff.2 ⟨n', ha⟩)

theorem Proper.steps (hl : P.Links .nil g l) (h : Proper P g l m) (hs : Steps P l m m') :
    Proper P g l m' := by
  induction hs with
  | refl => exact h
  | tail _ hstep ih => exact ih.step hl hstep

/-! ## One of many -/

theorem Proper.fill_content (h : Proper P g l m) :
    (m.fill P cell).content cell = some (P.built cell) := by
  cases hk : m.content cell with
  | some k =>
    rw [fill_of_some hk, hk, h.content hk]
  | none =>
    rw [fill_of_none hk]
    exact Function.update_self ..

theorem Proper.fill_session (h : Proper P g l m) :
    (m.fill P cell).session = m.session.look cell := by
  have hcell : cell ∈ m.session.built ↔ (m.content cell).isSome := h.called cell
  cases hk : m.content cell with
  | some k => rw [fill_of_some hk, Session.look_of_mem (by simp [hcell, hk])]
  | none =>
    rw [fill_of_none hk, Session.look_of_not_mem (by simp [hcell, hk])]
    rfl

theorem Proper.steps_pass (hl : P.Links .nil g l) (h : Proper P g l m) {n : Nat}
    {found : List (Nat × Nat)} (hi : m.worker i = .busy n q found) (hs : m.stands i = none)
    (ht : P.turn m.logged n l q found = some (.look cell)) :
    Steps P l m (m.pass P i cell) ∧ (m.pass P i cell).session = m.session.look cell := by
  have huse : Step P l m (m.use i cell) := .use hi hs ht
  have h₁ := h.step hl huse
  have hget : Step P l (m.use i cell) (m.pass P i cell) :=
    .get use_stands_self h₁.fill_content
  exact ⟨.head huse (.single hget), h₁.fill_session⟩

/-- A worker on its way passes the rest of its looks, and has its answer. -/
theorem Proper.served (hl : P.Links .nil g l) {n : Nat} {entries : List Record} (rest : List Nat)
    (h : Proper P g l m) {found : List (Nat × Nat)} (hi : m.worker i = .busy n q found)
    (hs : m.stands i = none) (hf : Asking.Honest P found)
    (ha : P.Answers m.logged n l q (found.map Prod.fst ++ rest) a entries) :
    ∃ m', Steps P l m m' ∧ m'.session = (Amid.after Session.look rest m.session).note entries ∧
      m'.worker = Function.update m.worker i .idle ∧
      m'.answered = Function.update m.answered i ((q, a) :: m.answered i) := by
  have hturn := ha found hf
  induction rest generalizing m found with
  | nil => exact ⟨_, .single (.done hi hs (by simpa using hturn)), rfl, rfl, rfl⟩
  | cons cell rest ih =>
    have hlook : P.turn m.logged n l q found = some (.look cell) := by simpa using hturn
    obtain ⟨hpass, hsession⟩ := h.steps_pass hl hi hs hlook
    have hworker : (m.pass P i cell).worker i = .busy n q (found ++ [(cell, P.built cell)]) := by
      rw [pass_worker, Function.update_self, hi, Worker.find]
    have hf' : Asking.Honest P (found ++ [(cell, P.built cell)]) :=
      List.forall_mem_append.2 ⟨hf, List.forall_mem_singleton.2 rfl⟩
    have ha' : P.Answers (m.pass P i cell).logged n l q
        ((found ++ [(cell, P.built cell)]).map Prod.fst ++ rest) a entries := by
      rw [pass_logged]
      simpa using ha
    obtain ⟨m', hm', hs', hw', ha'⟩ := ih (h.steps hl hpass) hworker find_stands_self hf' ha'
      (ha' _ hf')
    rw [hsession] at hs'
    rw [pass_worker, Function.update_idem] at hw'
    rw [pass_answered] at ha'
    exact ⟨m', hpass.trans hm', hs', hw', ha'⟩

/-- A worker that has asked for something gets its answer when nobody comes between. -/
theorem Proper.answerable (hl : P.Links .nil g l) (h : Proper P g l m) {n : Nat}
    {found : List (Nat × Nat)} (hi : m.worker i = .busy n q found) :
    ∃ a m', Steps P l m m' ∧ m'.worker = Function.update m.worker i .idle ∧
      m'.answered = Function.update m.answered i ((q, a) :: m.answered i) := by
  have hserve {m : Sharing σ α} (h : Proper P g l m) {found} (hi : m.worker i = .busy n q found)
      (hs : m.stands i = none) : ∃ a m', Steps P l m m' ∧
        m'.worker = Function.update m.worker i .idle ∧
        m'.answered = Function.update m.answered i ((q, a) :: m.answered i) := by
    obtain ⟨hf, _, a, rest, -, ha, -⟩ := h.busy hi
    obtain ⟨m', hm', -, hw', ha'⟩ := h.served hl rest hi hs hf ha
    exact ⟨a, m', hm', hw', ha'⟩
  cases hs : m.stands i with
  | none => exact hserve h hi hs
  | some cell =>
    -- what it stands at has to be looked into first
    have hget : Step P l m ((m.fill P cell).find i cell (P.built cell)) := .get hs h.fill_content
    obtain ⟨a, m', hm', hw', ha'⟩ := hserve (h.step hl hget)
      (by rw [find_worker_self, fill_worker, hi, Worker.find]) find_stands_self
    refine ⟨a, m', .head hget hm', ?_, ?_⟩
    · simpa [Sharing.find, Sharing.put] using hw'
    · simpa [Sharing.find, Sharing.put] using ha'

end Sharing

section

variable [Cursor σ ε] [Element ε] [Interprets S σ]

/-- Whatever the workers do, and whenever: the function of a cell is called at most once, and only
after a worker has come to the cell, to parse or to ask for a name; whoever has been answered has the
answer of a copy of the grammar that nobody had used, and whoever has asked can be answered. A worker
with the grammar to itself for a while does what the grammar's session does, which answers as if it
were new. -/
theorem sharing_unobservable {P : Definitions ε S L} {g : Grammar ε S [] α} {l : Linked ε S L α}
    (hl : P.Links .nil g l) {logged : Bool} {m : Sharing σ α}
    (h : Sharing.Steps P l (.new logged) m) :
    m.calls.Nodup ∧
      (∀ cell earlier, .called cell :: earlier <:+ m.history → ∃ i, .used i cell ∈ earlier) ∧
      (∀ cell, m.content cell = if cell ∈ m.calls then some (P.built cell) else none) ∧
      (∀ i q a, (q, a) ∈ m.answered i → a.Fresh g q) ∧
      (∀ i n q found, m.worker i = .busy n q found → ∃ a m', Sharing.Steps P l m m' ∧
        m'.worker = Function.update m.worker i .idle ∧
        m'.answered = Function.update m.answered i ((q, a) :: m.answered i)) ∧
      (∀ i n (q : Request σ) a, m.worker i = .idle → (m.session.serve n g q).1 = some a →
        ∃ m', Sharing.Steps P l m m' ∧ m'.session = (m.session.serve n g q).2 ∧
          m'.worker = m.worker ∧
          m'.answered = Function.update m.answered i ((q, a) :: m.answered i)) ∧
      ∀ n (q : Request σ) logged',
        (m.session.serve n g q).1 = ((Session.new logged').serve n g q).1 := by
  have hp := (Sharing.Proper.new (P := P) (g := g) (l := l) logged).steps hl h
  refine ⟨hp.once, fun _ _ => hp.needed, fun cell => ?_, fun _ _ _ => hp.answered,
    fun _ _ _ _ => hp.answerable hl, fun i n q a hi ha => ?_, fun n q logged' => ?_⟩
  · cases hk : m.content cell with
    | none => rw [if_neg (by simp [hp.called, hk])]
    | some k => rw [if_pos (by simp [hp.called, hk]), hp.content hk]
  · rw [Session.serve_eq] at ha ⊢
    have ha : q.answer n g = some a := ha
    obtain ⟨n', hanswers⟩ := hl.answers m.logged ha
    have hask : Sharing.Step P l m (m.put i (.busy n' q [])) :=
      .ask hi (by simp [hanswers [] (List.forall_mem_nil _)])
    obtain ⟨m', hm', hs', hw', ha'⟩ := (hp.step hl hask).served hl _ Sharing.put_worker_self
      (hp.idle hi) (List.forall_mem_nil _) hanswers
    refine ⟨m', .head hask hm', ?_, ?_, ha'⟩
    · rw [ha]
      exact hs'
    · rw [hw']
      simp [Sharing.put, ← hi]
  · rw [Session.serve_eq, Session.serve_eq]

end

/-- A definition inside of another one. -/
def twoCells : TextGrammar [] Char := .fix 0 (.right .any (.fix 1 .any))

/-- Each cell may also hold a parser that its function does not build. -/
def cellsOfTwo : Definitions Char .text fun _ => Char where
  held
    | 0, 0 => .right .any (.prim (.own 1))
    | 1, 1 => .any
    | _, _ => .fail "something else"
  built cell := cell

/-- A worker asks for the grammar's name while another one is in a parse. Both come to each of the
cells before anybody has looked into it, and its function is called by the one who looks first. -/
theorem name_during_parse :
    cellsOfTwo.Links .nil twoCells (.prim (.own 0)) ∧
    ∃ m : Sharing TextCursor Char, Sharing.Steps cellsOfTwo (.prim (.own 0)) (.new true) m ∧
      m.history = [.called 1, .used 1 1, .used 0 1, .called 0, .used 0 0, .used 1 0] ∧
      m.calls.Nodup ∧
      m.answered 0 = [(.parse (.ofText ['a', 'b']), .parsed ⟨.ok 'b', ⟨['b', 'a'], [], 2, 1⟩⟩)] ∧
      m.answered 1 = [(.name, .named twoCells.name)] ∧
      (.parsed ⟨.ok 'b', ⟨['b', 'a'], [], 2, 1⟩⟩ : Answer TextCursor Char).Fresh twoCells
        (.parse (.ofText ['a', 'b'])) := by
  have hl : cellsOfTwo.Links .nil twoCells (.prim (.own 0)) := .fix (.right .any (.fix .any))
  obtain ⟨m, hm, hh, ha, hn⟩ : ∃ m : Sharing TextCursor Char,
      Sharing.Steps cellsOfTwo (.prim (.own 0)) (.new true) m ∧
        m.history = [.called 1, .used 1 1, .used 0 1, .called 0, .used 0 0, .used 1 0] ∧
        m.answered 0 =
          [(.parse (.ofText ['a', 'b']), .parsed ⟨.ok 'b', ⟨['b', 'a'], [], 2, 1⟩⟩)] ∧
        m.answered 1 = [(.name, .named twoCells.name)] :=
    ⟨_, .head (.ask (i := 0) (n := 2) (q := .parse (.ofText ['a', 'b'])) rfl rfl) <|
      .head (.ask (i := 1) (n := 2) (q := .name) rfl rfl) <|
      .head (.use (i := 1) rfl rfl rfl) <| .head (.use (i := 0) rfl rfl rfl) <|
      .head (.get (i := 0) rfl rfl) <| .head (.get (i := 1) rfl rfl) <|
      .head (.use (i := 0) rfl rfl rfl) <| .head (.use (i := 1) rfl rfl rfl) <|
      .head (.get (i := 1) rfl rfl) <| .head (.get (i := 0) rfl rfl) <|
      .head (.done (i := 1) rfl rfl rfl) <| .single (.done (i := 0) rfl rfl rfl), rfl, rfl, rfl⟩
  have h := sharing_unobservable hl hm
  exact ⟨hl, m, hm, hh, h.1, ha, hn, h.2.2.2.1 0 _ _ (by simp [ha])⟩

end Descent
