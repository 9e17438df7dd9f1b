import Descent.Proofs.Linking
import Descent.Session

/-!
# Requests

A grammar can be asked to parse and for its name, and a parse that fails asks for the name too if
there is a log. What a session answers is what the grammar answers, and what happens to the session
depends on the cells alone that are looked at for it: `Session.serve_eq`. A grammar with its
definitions in cells gives the same answers, and looks at the same cells (`Links.serves`), and gives
no others (`Links.of_serve`).
-/

namespace Descent

variable {σ ε α : Type} {S : Signature}

/-! ## One user -/

inductive Request (σ : Type)
  | parse (c : σ)
  | name

inductive Answer (σ α : Type)
  | parsed (r : Reply σ α)
  | named (name : String)

namespace Session

/-- A look at the cell of a definition, which is built if it has not been. -/
def look (cell : Nat) (s : Session) : Session := s.withBuilt (Traced.build cell s.built)

theorem foldl_record (r : Record) (k : Nat) (s : Session) :
    (List.replicate k r).foldl record s =
      { s with log := if s.logged then List.replicate k r ++ s.log else s.log } := by
  induction k generalizing s with
  | zero => simp
  | succ k ih =>
    rw [List.replicate_succ, List.foldl_cons, ih, ← List.replicate_succ, List.replicate_succ']
    cases hs : s.logged <;> simp [record, hs]

theorem withBuilt_eq (s : Session) (built : List Nat) :
    s.withBuilt built = { s with
      built := built
      log := if s.logged then
        List.replicate (built.length - s.built.length) .building ++ s.log else s.log } :=
  foldl_record _ _ _

@[simp] theorem withBuilt_built (s : Session) (built : List Nat) :
    (s.withBuilt built).built = built := by
  rw [withBuilt_eq]

@[simp] theorem withBuilt_logged (s : Session) (built : List Nat) :
    (s.withBuilt built).logged = s.logged := by
  rw [withBuilt_eq]

@[simp] theorem withBuilt_self (s : Session) : s.withBuilt s.built = s := by
  simp [withBuilt]

theorem withBuilt_withBuilt {s : Session} {built built' : List Nat}
    (h : s.built.length ≤ built.length) (h' : built.length ≤ built'.length) :
    (s.withBuilt built).withBuilt built' = s.withBuilt built' := by
  have hk : built'.length - s.built.length =
      (built'.length - built.length) + (built.length - s.built.length) := by omega
  simp only [withBuilt_eq, hk, List.replicate_add, List.append_assoc]
  cases s.logged <;> rfl

@[simp] theorem look_built (cell : Nat) (s : Session) :
    (s.look cell).built = Traced.build cell s.built := withBuilt_built _ _

theorem look_of_mem {cell : Nat} {s : Session} (h : cell ∈ s.built) : s.look cell = s := by
  rw [look, Traced.build, if_pos h, withBuilt_self]

theorem look_of_not_mem {cell : Nat} {s : Session} (h : cell ∉ s.built) : s.look cell =
    { s with
      built := cell :: s.built
      log := if s.logged then .building :: s.log else s.log } := by
  rw [look, Traced.build, if_neg h, withBuilt_eq]
  simp

end Session

namespace Traced

theorem length_le_build (cell : Nat) (built : List Nat) :
    built.length ≤ (build cell built).length := by
  unfold build
  split
  · exact Nat.le_refl _
  · exact Nat.le_succ _

theorem length_le_after (cells built : List Nat) :
    built.length ≤ (Amid.after build cells built).length := by
  induction cells generalizing built with
  | nil => exact Nat.le_refl _
  | cons cell cells ih => exact Nat.le_trans (length_le_build cell built) (ih _)

/-- A traced cursor is one amid what has been built. -/
def ofAmid [Cursor σ ε] : View (Amid build σ) (Traced σ) where
  see c := ⟨c.inner, c.world⟩
  read c := by
    change (Cursor.read c.inner).map _ = ((Cursor.read c.inner).map _).map _
    simp [Function.comp_def]
  unread c := by
    change (Cursor.unread c.inner).map _ = ((Cursor.unread c.inner).map _).map _
    simp [Function.comp_def]
  restore _ _ := rfl
  offset _ := rfl
  exhausted c := by
    change (Cursor.exhausted c.inner).map _ = ((Cursor.exhausted c.inner).map _).map _
    simp [Function.comp_def]
  visit _ _ := rfl

theorem ofAmid_respects [Cursor σ ε] (S : Signature) [Interprets S σ] :
    (ofAmid : View (Amid build σ) _).Respects S where
  prim {α} p c := by
    dsimp only [Interprets.prim, ofAmid]
    cases (Interprets.prim p : Parser σ α) c.inner with
    | none => rfl
    | some r => rfl
  scope _ _ _ _ := rfl

end Traced

section

variable [Cursor σ ε] [Element ε] [Interprets S σ]

/-- What a traced run has built at its end. -/
theorem Grammar.parser_traced (n : Nat) (g : Grammar ε S [] α) (c : σ) (built : List Nat) :
    (g.parser n : Parser (Traced σ) α) ⟨c, built⟩ = (g.parser n c).map fun r =>
      ⟨r.result, r.cursor, Amid.after Traced.build (g.looks n c) built⟩ := by
  have h : (g.parser n : Parser (Traced σ) α) ⟨c, built⟩ = _ :=
    View.parser (Traced.ofAmid_respects S) n g ⟨c, built⟩
  rw [h, parser_amid]
  simp [Function.comp_def, View.reply, Traced.ofAmid]

theorem Grammar.looks_of_none {n : Nat} {g : Grammar ε S [] α} {c : σ} (h : g.parser n c = none) :
    g.looks n c = [] := by
  unfold looks
  rw [parser_amid, h]
  rfl

namespace Request

def answer (n : Nat) (g : Grammar ε S [] α) : Request σ → Option (Answer σ α)
  | parse c => (g.parser n c).map .parsed
  | name => some (.named g.name)

/-- The cells that are looked at to find the answer, in order. -/
def looks (n : Nat) (g : Grammar ε S [] α) : Request σ → List Nat
  | parse c => g.looks n c
  | name => g.namingCells

end Request

namespace Answer

/-- The cells that are looked at to log the answer: a failure is logged under the grammar's
name. -/
def naming (logged : Bool) (g : Grammar ε S [] α) : Answer σ α → List Nat
  | parsed ⟨.error _, _⟩ => if logged then g.namingCells else []
  | _ => []

/-- The entries for the log. -/
def entries (logged : Bool) (g : Grammar ε S [] α) : Answer σ α → List Record
  | parsed ⟨.error e, _⟩ => if logged then [.parseFailed g.name e] else []
  | _ => []

end Answer

namespace Session

/-- Use the grammar of a session. -/
def serve (n : Nat) (g : Grammar ε S [] α) (q : Request σ) (s : Session) :
    Option (Answer σ α) × Session :=
  match q with
  | .parse c => ((s.parse n g c).1.map .parsed, (s.parse n g c).2)
  | .name => (some (.named (s.name g).1), (s.name g).2)

theorem after_look (cells : List Nat) (s : Session) :
    Amid.after look cells s = s.withBuilt (Amid.after Traced.build cells s.built) := by
  induction cells generalizing s with
  | nil => simp
  | cons cell cells ih =>
    rw [Amid.after_cons, ih, look_built]
    exact withBuilt_withBuilt (Traced.length_le_build _ _) (Traced.length_le_after _ _)

theorem run_eq (n : Nat) (g : Grammar ε S [] α) (c : σ) (s : Session) :
    s.run n g c = (g.parser n c, Amid.after look (g.looks n c) s) := by
  unfold run
  rw [Grammar.parser_traced]
  cases hr : g.parser n c with
  | none => simp [Grammar.looks_of_none hr]
  | some r => simp [after_look]

omit [Element ε] in
theorem name_eq (g : Grammar ε S [] α) (s : Session) :
    s.name g = (g.name, Amid.after look g.namingCells s) := by
  rw [after_look]
  rfl

@[simp] theorem after_look_logged (cells : List Nat) (s : Session) :
    (Amid.after look cells s).logged = s.logged := by
  rw [after_look, withBuilt_logged]

def note (entries : List Record) (s : Session) : Session := { s with log := entries ++ s.log }

@[simp] theorem note_nil (s : Session) : s.note [] = s := rfl

/-- What a session does when it is asked: the cells are looked at, and the answer is logged. -/
theorem serve_eq (n : Nat) (g : Grammar ε S [] α) (q : Request σ) (s : Session) :
    s.serve n g q = (q.answer n g, match q.answer n g with
      | none => s
      | some a => (Amid.after look (q.looks n g ++ a.naming s.logged g) s).note
          (a.entries s.logged g)) := by
  cases q with
  | name =>
    simp [serve, Request.answer, Request.looks, Answer.naming, Answer.entries, name_eq]
  | parse c =>
    simp only [serve, Request.answer, Request.looks, parse, parseAs, run_eq]
    cases hr : g.parser n c with
    | none => simp [Grammar.looks_of_none hr]
    | some r =>
      obtain ⟨_ | v, d⟩ := r
      · cases hs : s.logged with
        | false => simp [Answer.naming, Answer.entries, hs]
        | true =>
          simp [note, Answer.naming, Answer.entries, name_eq, Amid.after_append, record, hs]
      · simp [Answer.naming, Answer.entries]

end Session

/-- What a copy of the grammar that nobody has used yet answers, with or without a log. -/
def Answer.Fresh (g : Grammar ε S [] α) (q : Request σ) (a : Answer σ α) : Prop :=
  ∃ n, ∀ logged, ((Session.new logged).serve n g q).1 = some a

theorem Answer.fresh_iff {g : Grammar ε S [] α} {q : Request σ} {a : Answer σ α} :
    a.Fresh g q ↔ ∃ n, q.answer n g = some a := by
  simp [Fresh, Session.serve_eq]

/-! ## Through cells -/

namespace Definitions

open Filter

variable {W : Type} {L : Nat → Type} {P : Definitions ε S L} {get : Nat → W → Nat × W}

/-- Use a grammar that ends in links (`run`): the answer, and the entries for the log. -/
def serve (P : Definitions ε S L) (get : Nat → W → Nat × W) (logged : Bool) (n : Nat)
    (l : Linked ε S L α) : Request σ → StateT W Option (Answer σ α × List Record)
  | .name => return (.named (← P.tell get n l), [])
  | .parse c => do
    let r ← P.parse get n l c
    match r.result, logged with
    | .error e, true => return (.parsed r, [.parseFailed (← P.tell get n l) e])
    | _, _ => return (.parsed r, [])

variable {g : Grammar ε S [] α} {l : Linked ε S L α} {q : Request σ} {a : Answer σ α}

/-- What the grammar answers, it answers through cells in all truthful worlds. -/
theorem Links.serves (h : P.Links .nil g l) (logged : Bool) {n : Nat} (ha : q.answer n g = some a) :
    P.Yields get (fun m => P.serve get logged m l q) (a, a.entries logged g)
      (q.looks n g ++ a.naming logged g) := by
  cases q with
  | name =>
    cases ha
    rw [show Request.looks n g _ ++ _ = g.namingCells from List.append_nil _]
    exact h.tells.map fun name => ((.named name : Answer σ α), ([] : List Record))
  | parse c =>
    obtain ⟨r, hr, rfl⟩ := Option.map_eq_some_iff.1 ha
    refine (h.yields hr).bind ?_
    obtain ⟨_ | v, d⟩ := r
    · cases logged with
      | false => exact .pure _
      | true => exact h.tells.map _
    · exact .pure _

/-- Whatever is answered through cells, the grammar answers something too. -/
theorem Links.of_serve (h : P.Links .nil g l) {logged : Bool} {m : Nat} {w w' : W}
    {x : Answer σ α × List Record} (hw : P.Truthful get w)
    (hx : P.serve get logged m l q w = some (x, w')) : ∃ n a, q.answer n g = some a := by
  cases q with
  | name => exact ⟨0, _, rfl⟩
  | parse c =>
    obtain ⟨⟨r, w₁⟩, hr, -⟩ := Option.bind_eq_some_iff.1 hx
    rcases h.of_run m c with hm | ⟨n, r', hr', -⟩
    · cases (hm w hw).symm.trans hr
    · exact ⟨n, .parsed r', by rw [Request.answer, hr', Option.map_some]⟩

end Definitions

end

end Descent
