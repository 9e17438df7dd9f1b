import Descent.Proofs.Correspondence

/-!
# Runs amid a world

Whenever a run enters a recursive definition, something outside of the cursor may change: the
definition is built, or others have been built in the meantime. `Amid look σ` are the cursors with
such a world around them; entering the definition of a cell changes the world by `look`. Main
theorem `Grammar.parser_amid`: in every world a run ends as it does on its own, and it enters the
same cells in the same order (`Grammar.looks`), so that what the world is like never matters to it.

Runs of different kinds of cursors are compared through a `View`, which leaves out a part of the
cursor that no run depends on.
-/

namespace Descent

/-! ## Views -/

/-- A way to see cursors of one kind as those of another, which every movement respects. -/
structure View (τ σ : Type) {ε : Type} [Cursor τ ε] [Cursor σ ε] where
  see : τ → σ
  read (c : τ) : Cursor.read (see c) = (Cursor.read c).map fun r => (r.1, see r.2)
  unread (c : τ) : Cursor.unread (see c) = (Cursor.unread c).map see
  restore (now earlier : τ) :
    Cursor.restore (see now) (see earlier) = see (Cursor.restore now earlier)
  offset (c : τ) : Cursor.offset (see c) = Cursor.offset c
  exhausted (c : τ) : Cursor.exhausted (see c) = (Cursor.exhausted c).map fun r => (r.1, see r.2)
  visit (cell : Nat) (c : τ) : Cursor.visit cell (see c) = see (Cursor.visit cell c)

namespace View

variable {τ σ ε α : Type} [Cursor τ ε] [Cursor σ ε] [Element ε] (V : View τ σ)

def reply (r : Reply τ α) : Reply σ α := ⟨r.result, V.see r.cursor⟩

private theorem rel_map {A B : Type} {R : A → B → Prop} {f : A → B} (x : Option A)
    (h : ∀ a ∈ x, R a (f a)) : Option.Rel R x (x.map f) := by
  cases x with
  | none => exact .none
  | some a => exact .some (h a rfl)

/-- A cursor corresponds to what is seen of it. -/
def correspondence : Correspondence τ σ where
  Rel c d := d = V.see c
  relocate := id
  offset := by
    rintro c _ rfl
    exact V.offset c
  apart := by
    rintro c _ c' _ rfl rfl h
    rwa [V.offset, V.offset] at h
  read := by
    rintro c _ rfl
    rw [V.read]
    exact rel_map _ fun _ _ => ⟨rfl, rfl⟩
  unread := by
    rintro c _ x c' d' rfl hc hd
    rw [V.read, hc] at hd
    cases hd
    rw [V.unread]
    exact rel_map _ fun _ _ => rfl
  restore := by
    rintro c _ c' _ rfl rfl
    exact V.restore c' c
  exhausted := by
    rintro c _ rfl
    rw [V.exhausted]
    exact rel_map _ fun _ _ => ⟨rfl, rfl⟩
  visit := by
    rintro c _ cell rfl
    exact V.visit cell c

/-- The signature respects the view too. -/
structure Respects (S : Signature) [Interprets S τ] [Interprets S σ] : Prop where
  prim {α : Type} (p : S.Prim α) (c : τ) :
    Interprets.prim p (V.see c) = (Interprets.prim p c).map V.reply
  scope {α β : Type} (s : S.Scope α β) (v : α) (c d : τ) :
    Interprets.scope s (V.see c) v (V.see d) = Interprets.scope s c v d

variable {V} {S : Signature} [Interprets S τ] [Interprets S σ]

private theorem mapError_id (x : Except ParseError α) :
    x.mapError (ParseError.relocate id) = x := by
  cases x with
  | ok v => rfl
  | error e => exact congrArg Except.error e.relocate_id

omit [Element ε] in
theorem ends_iff {r : Reply τ α} {r' : Reply σ α} :
    V.correspondence.Ends r r' ↔ r' = V.reply r := by
  obtain ⟨result, d⟩ := r'
  constructor
  · rintro ⟨hr, hd⟩
    exact congrArg₂ Reply.mk (hr.trans (mapError_id r.result)) hd
  · intro h
    cases h
    exact ⟨(mapError_id r.result).symm, rfl⟩

omit [Element ε] in
theorem Respects.on (h : V.Respects S) : V.correspondence.RespectsOn (.all S) where
  prim {_ p} _ := by
    rintro c _ rfl
    rw [h.prim]
    exact rel_map _ fun _ _ => ends_iff.2 rfl
  scope {_ _ s} _ v c d c' d' hd hd' := by
    obtain rfl := hd
    obtain rfl := hd'
    exact (h.scope s v c c').trans (mapError_id _).symm

/-- Runs respect the view. -/
theorem parser (h : V.Respects S) (n : Nat) (g : Grammar ε S [] α) (c : τ) :
    g.parser n (V.see c) = (g.parser n c).map V.reply := by
  have hC : V.correspondence.Rel c (V.see c) := rfl
  have hr : V.correspondence.lockstep.Replies c (V.see c) (g.parser n c) (g.parser n (V.see c)) :=
    Grammar.run_agree_on h.on.lockstep (Nat.le_refl n) g g.within_all (fun v => nomatch v) _ _
      ⟨hC, hC⟩
  have hl : V.correspondence.lockstep.symm.Replies (V.see c) c (g.parser n (V.see c))
      (g.parser n c) :=
    Grammar.run_agree_on h.on.lockstep_symm (Nat.le_refl n) g g.within_all (fun v => nomatch v) _ _
      ⟨hC, hC⟩
  match hc : g.parser n c, hd : g.parser n (V.see c) with
  | none, none => rfl
  | none, some r =>
    rw [hc, hd] at hl
    cases hl
  | some r, none =>
    rw [hc, hd] at hr
    cases hr
  | some r, some r' =>
    rw [hc, hd] at hr
    exact congrArg some (ends_iff.1 ((V.correspondence.ends_iff hC).1 hr))

end View

/-! ## Worlds -/

/-- A cursor amid a world that changes whenever a run enters a recursive definition. -/
structure Amid {W : Type} (look : Nat → W → W) (σ : Type) where
  inner : σ
  world : W

namespace Amid

variable {W W' σ ε : Type} {look : Nat → W → W} {look' : Nat → W' → W'}

instance [Cursor σ ε] : Cursor (Amid look σ) ε where
  read c := (Cursor.read c.inner).map fun (x, i) => (x, { c with inner := i })
  unread c := (Cursor.unread c.inner).map fun i => { c with inner := i }
  restore now earlier := { now with inner := Cursor.restore now.inner earlier.inner }
  offset c := Cursor.offset c.inner
  exhausted c := (Cursor.exhausted c.inner).map fun (x, i) => (x, { c with inner := i })
  visit cell c := ⟨Cursor.visit cell c.inner, look cell c.world⟩

/-- The world does not change what a signature does. -/
instance (S : Signature) [Interprets S σ] : Interprets S (Amid look σ) where
  prim p c := (Interprets.prim p c.inner).map fun r => ⟨r.result, { c with inner := r.cursor }⟩
  scope s start v stop := Interprets.scope s start.inner v stop.inner

/-- The world after these cells have been entered. -/
def after (look : Nat → W → W) (looks : List Nat) (w : W) : W :=
  looks.foldl (fun w cell => look cell w) w

@[simp] theorem after_nil (look : Nat → W → W) (w : W) : after look [] w = w := rfl

@[simp] theorem after_cons (look : Nat → W → W) (cell : Nat) (looks : List Nat) (w : W) :
    after look (cell :: looks) w = after look looks (look cell w) := rfl

theorem after_append (look : Nat → W → W) (looks looks' : List Nat) (w : W) :
    after look (looks ++ looks') w = after look looks' (after look looks w) :=
  List.foldl_append

/-- A world that remembers the cells, latest first. -/
def remember (cell : Nat) (cells : List Nat) : List Nat := cell :: cells

theorem after_remember (looks cells : List Nat) :
    after remember looks cells = looks.reverse ++ cells := by
  induction looks generalizing cells with
  | nil => rfl
  | cons cell looks ih => simp [ih, remember]

def pair (look : Nat → W → W) (look' : Nat → W' → W') (cell : Nat) (w : W × W') : W × W' :=
  (look cell w.1, look' cell w.2)

theorem after_pair (look : Nat → W → W) (look' : Nat → W' → W') (looks : List Nat) (w : W × W') :
    after (pair look look') looks w = (after look looks w.1, after look' looks w.2) := by
  induction looks generalizing w with
  | nil => rfl
  | cons cell looks ih => exact ih (pair look look' cell w)

variable [Cursor σ ε]

/-- The cursor without the world. -/
def bare (look : Nat → W → W) : View (Amid look σ) σ where
  see c := c.inner
  read c := by
    change _ = ((Cursor.read c.inner).map _).map _
    simp [Function.comp_def]
  unread c := by
    change _ = ((Cursor.unread c.inner).map _).map _
    simp [Function.comp_def]
  restore _ _ := rfl
  offset _ := rfl
  exhausted c := by
    change _ = ((Cursor.exhausted c.inner).map _).map _
    simp [Function.comp_def]
  visit _ _ := rfl

theorem bare_respects (look : Nat → W → W) (S : Signature) [Interprets S σ] :
    (bare look : View _ σ).Respects S where
  prim p c := by
    change _ = ((Interprets.prim p c.inner).map _).map _
    simp [Function.comp_def, View.reply, bare]
  scope _ _ _ _ := rfl

/-- The cursor amid what `f` tells of its world. -/
def through {f : W → W'} (h : ∀ cell w, look' cell (f w) = f (look cell w)) :
    View (Amid look σ) (Amid look' σ) where
  see c := ⟨c.inner, f c.world⟩
  read c := by
    change (Cursor.read c.inner).map _ = ((Cursor.read c.inner).map _).map _
    simp [Function.comp_def]
  unread c := by
    change (Cursor.unread c.inner).map _ = ((Cursor.unread c.inner).map _).map _
    simp [Function.comp_def]
  restore _ _ := rfl
  offset _ := rfl
  exhausted c := by
    change (Cursor.exhausted c.inner).map _ = ((Cursor.exhausted c.inner).map _).map _
    simp [Function.comp_def]
  visit cell c := congrArg (Amid.mk (Cursor.visit cell c.inner)) (h cell c.world)

theorem through_respects {f : W → W'} (h : ∀ cell w, look' cell (f w) = f (look cell w))
    (S : Signature) [Interprets S σ] : (through h : View (Amid look σ) _).Respects S where
  prim p c := by
    change (Interprets.prim p c.inner).map _ = ((Interprets.prim p c.inner).map _).map _
    simp [Function.comp_def, View.reply, through]
  scope _ _ _ _ := rfl

/-- The world of a run is the one it began in after some cells have been entered. -/
def course (look : Nat → W → W) : Course (Amid look σ) where
  Ahead c d := ∃ looks, d.world = after look looks c.world
  refl _ := ⟨[], rfl⟩
  trans := by
    rintro c d e ⟨looks, hd⟩ ⟨looks', he⟩
    exact ⟨looks ++ looks', by rw [after_append, he, hd]⟩
  read {c d x} h := by
    obtain ⟨r, -, hr⟩ := Option.map_eq_some_iff.1 h
    cases hr
    exact ⟨[], rfl⟩
  unread {c d b x} h hb := by
    obtain ⟨⟨y, j⟩, -, hr⟩ := Option.map_eq_some_iff.1 h
    cases hr
    obtain ⟨i, -, hi⟩ := Option.map_eq_some_iff.1 hb
    cases hi
    exact ⟨[], rfl⟩
  restore h := h
  exhausted {c d b} h := by
    obtain ⟨r, -, hr⟩ := Option.map_eq_some_iff.1 h
    cases hr
    exact ⟨[], rfl⟩
  visit cell _ := ⟨[cell], rfl⟩

end Amid

namespace Grammar

variable {W σ ε α : Type} {S : Signature} [Cursor σ ε] [Element ε] [Interprets S σ]

/-- The cells whose definitions a run enters, in order; none if it does not end. -/
def looks (n : Nat) (g : Grammar ε S [] α) (c : σ) : List Nat :=
  match (g.parser n : Parser (Amid Amid.remember σ) α) ⟨c, []⟩ with
  | none => []
  | some r => r.cursor.world.reverse

/-- In every world a run ends as it does on its own, and enters the same cells. -/
theorem parser_amid (look : Nat → W → W) (n : Nat) (g : Grammar ε S [] α) (c : σ) (w : W) :
    (g.parser n : Parser (Amid look σ) α) ⟨c, w⟩ =
      (g.parser n c).map fun r => ⟨r.result, r.cursor, Amid.after look (g.looks n c) w⟩ := by
  -- one run in both worlds, the one that remembers and the given one
  let both : Amid (Amid.pair Amid.remember look) σ := ⟨c, [], w⟩
  have hbare : g.parser n c = _ := View.parser (Amid.bare_respects _ S) n g both
  have hfst : (g.parser n : Parser (Amid Amid.remember σ) α) ⟨c, []⟩ = _ :=
    View.parser (Amid.through_respects (f := Prod.fst) (fun _ _ => rfl) S) n g both
  have hsnd : (g.parser n : Parser (Amid look σ) α) ⟨c, w⟩ = _ :=
    View.parser (Amid.through_respects (f := Prod.snd) (fun _ _ => rfl) S) n g both
  unfold looks
  rw [hbare, hfst, hsnd]
  cases hr : g.parser n both with
  | none => rfl
  | some r =>
    obtain ⟨looks, hw⟩ : (Amid.course _).Ahead both r.cursor := by
      refine Returns.ahead (fun p c r hp => ?_) ⟨n, hr⟩
      obtain ⟨i, -, hi⟩ := Option.map_eq_some_iff.1 hp
      cases hi
      exact ⟨[], rfl⟩
    rw [Amid.after_pair] at hw
    simp [View.reply, Amid.bare, Amid.through, hw, both, Amid.after_remember]

theorem parser_remember {g : Grammar ε S [] α} {c : σ} {n : Nat} {r : Reply σ α}
    (h : g.parser n c = some r) : (g.parser n : Parser (Amid Amid.remember σ) α) ⟨c, []⟩ =
      some ⟨r.result, r.cursor, (g.looks n c).reverse⟩ := by
  rw [parser_amid, h, Option.map_some, Amid.after_remember, List.append_nil]

/-- Runs that end, end with the same and enter the same cells. -/
theorem looks_unique {g : Grammar ε S [] α} {c : σ} {n m : Nat} {r r' : Reply σ α}
    (h : g.parser n c = some r) (h' : g.parser m c = some r') :
    r = r' ∧ g.looks n c = g.looks m c := by
  cases Returns.unique ⟨n, h⟩ ⟨m, h'⟩
  have heq := Returns.unique ⟨n, parser_remember h⟩ ⟨m, parser_remember h'⟩
  exact ⟨rfl, List.reverse_injective (congrArg (fun r => r.cursor.world) heq)⟩

end Grammar
end Descent
