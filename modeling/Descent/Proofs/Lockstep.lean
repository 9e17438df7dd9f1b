import Descent.Grammar.Run
import Descent.Proofs.Loops
import Mathlib.Data.List.Forall2

/-!
# Two runs side by side

One grammar is run from two cursors, which may be of different kinds. A `Lockstep` says what the two
runs keep: `Reach c d c' d'`, that runs which began at `c` and `d` may have got to `c'` and `d'`,
and `Fault c d e e'`, that they may fail with `e` and `e'`. Its fields are the obligations of one
step: reading, putting back, returning to a checkpoint, and each way in which a failure is put
together.

Main theorem `Grammar.run_agree`: what every step keeps is kept by every run of every grammar. The
second run may have more fuel than the first; it then ends the same way if the first ends at all.
Where only some parsers of a signature keep it, so do the grammars that use no others
(`Grammar.Within`, `Grammar.run_agree_on`). A statement about single runs is one about a run and
itself: see `Course`.
-/

namespace Descent

/-- Some of what a kind of input offers. -/
structure Signature.Part (S : Signature) where
  prim : {α : Type} → S.Prim α → Prop
  scope : {α β : Type} → S.Scope α β → Prop

def Signature.Part.all (S : Signature) : S.Part := ⟨fun _ => True, fun _ => True⟩

/-- Of what the input offers the grammar uses nothing that is not in the part. -/
def Grammar.Within {ε : Type} {S : Signature} (P : S.Part) :
    {Γ : List Type} → {α : Type} → Grammar ε S Γ α → Prop
  | _, _, item _ _ | _, _, any | _, _, ret _ | _, _, fail _ | _, _, eof | _, _, ref _ => True
  | _, _, finish p | _, _, map _ p | _, _, tryMap _ p | _, _, check _ _ p | _, _, attempt p
  | _, _, opt p | _, _, lookAhead p | _, _, named _ p | _, _, many p | _, _, many1 p
  | _, _, count _ _ p | _, _, skipMany p | _, _, skipMany1 p | _, _, fix _ p => p.Within P
  | _, _, bind p f => p.Within P ∧ ∀ v, (f v).Within P
  | _, _, all _ ps | _, _, choice _ ps | _, _, tryChoice _ ps => ∀ i, (ps i).Within P
  | _, _, right p q | _, _, left p q | _, _, or p q | _, _, sepBy q p | _, _, sepBy1 q p
  | _, _, manyTill p q | _, _, chainLeft p q | _, _, chainRight p q => p.Within P ∧ q.Within P
  | _, _, prim p => P.prim p
  | _, _, scope s p => P.scope s ∧ p.Within P

theorem Grammar.within_all {ε : Type} {S : Signature} :
    {Γ : List Type} → {α : Type} → (g : Grammar ε S Γ α) → g.Within (.all S)
  | _, _, item _ _ | _, _, any | _, _, ret _ | _, _, fail _ | _, _, eof | _, _, ref _
  | _, _, prim _ => trivial
  | _, _, finish p | _, _, map _ p | _, _, tryMap _ p | _, _, check _ _ p | _, _, attempt p
  | _, _, opt p | _, _, lookAhead p | _, _, named _ p | _, _, many p | _, _, many1 p
  | _, _, count _ _ p | _, _, skipMany p | _, _, skipMany1 p | _, _, fix _ p => p.within_all
  | _, _, bind p f => ⟨p.within_all, fun v => (f v).within_all⟩
  | _, _, all _ ps | _, _, choice _ ps | _, _, tryChoice _ ps => fun i => (ps i).within_all
  | _, _, right p q | _, _, left p q | _, _, or p q | _, _, sepBy q p | _, _, sepBy1 q p
  | _, _, manyTill p q | _, _, chainLeft p q | _, _, chainRight p q =>
    ⟨p.within_all, q.within_all⟩
  | _, _, scope _ p => ⟨trivial, p.within_all⟩

/-- What is kept while one grammar runs from two places. -/
structure Lockstep (σ τ : Type) {ε : Type} [Cursor σ ε] [Cursor τ ε] [Element ε] where
  /-- Runs that began at the first two places may now be at the last two. -/
  Reach : σ → τ → σ → τ → Prop
  /-- Runs that began at the two places may fail with the two errors. -/
  Fault : σ → τ → ParseError → ParseError → Prop
  /-- A run may begin wherever another one has got to. -/
  here {c d c' d'} : Reach c d c' d' → Reach c' d' c' d'
  trans {c d c₁ d₁ c₂ d₂} : Reach c d c₁ d₁ → Reach c₁ d₁ c₂ d₂ → Reach c d c₂ d₂
  /-- The runs agree on whether they have consumed anything. -/
  offset {c d c' d'} : Reach c d c' d' →
    (Cursor.offset c' = Cursor.offset c ↔ Cursor.offset d' = Cursor.offset d)
  read {c d} : Reach c d c d →
    Option.Rel (fun r r' => r.1 = r'.1 ∧ Reach c d r.2 r'.2) (Cursor.read c) (Cursor.read d)
  /-- Putting back an element that has just been read. -/
  unread {c d x c' d'} : Reach c d c d → Cursor.read c = some (some x, c') →
    Cursor.read d = some (some x, d') →
    Option.Rel (Reach c d) (Cursor.unread c') (Cursor.unread d')
  restore {c d c' d'} : Reach c d c' d' →
    Reach c d (Cursor.restore c' c) (Cursor.restore d' d)
  exhausted {c d} : Reach c d c d →
    Option.Rel (fun r r' => r.1 = r'.1 ∧ Reach c d r.2 r'.2)
      (Cursor.exhausted c) (Cursor.exhausted d)
  visit {c d} (cell : Nat) : Reach c d c d →
    Reach c d (Cursor.visit cell c) (Cursor.visit cell d)
  /-- What fails later has failed. -/
  later {c d c' d' e e'} : Reach c d c' d' → Fault c' d' e e' → Fault c d e e'
  endOfInput {c d c' d'} : Reach c d c d → Cursor.read c = some (none, c') →
    Cursor.read d = some (none, d') →
    Fault c d (.endOfInput (Cursor.offset c')) (.endOfInput (Cursor.offset d'))
  predicate {c d x c' d'} (message : String) : Reach c d c d →
    Cursor.read c = some (some x, c') → Cursor.read d = some (some x, d') →
    Fault c d (.predicate (Cursor.offset c) (Element.shown x) message)
      (.predicate (Cursor.offset d) (Element.shown x) message)
  nothingToUnread {c d x c' d'} : Reach c d c d → Cursor.read c = some (some x, c') →
    Cursor.read d = some (some x, d') → Cursor.unread c' = none → Cursor.unread d' = none →
    Fault c d (.nothingToUnread (Cursor.offset c')) (.nothingToUnread (Cursor.offset d'))
  unparsed {c d x c' d' c'' d''} : Reach c d c d → Cursor.exhausted c = some (false, c') →
    Cursor.exhausted d = some (false, d') → Cursor.read c' = some (x, c'') →
    Cursor.read d' = some (x, d'') →
    Fault c d (.unparsed (Cursor.offset c') ((x.map Element.shown).getD ""))
      (.unparsed (Cursor.offset d') ((x.map Element.shown).getD ""))
  failure {c d} (message : String) : Reach c d c d →
    Fault c d (.failure (Cursor.offset c) message) (.failure (Cursor.offset d) message)
  transform {c d} (message : String) : Reach c d c d →
    Fault c d (.transform (Cursor.offset c) message) (.transform (Cursor.offset d) message)
  alternatives {c d e e' f f'} : Reach c d c d → Fault c d e e' → Fault c d f f' →
    Fault c d (.alternatives (Cursor.offset c) [e, f]) (.alternatives (Cursor.offset d) [e', f'])
  expected {c d es es'} (label : String) : Reach c d c d → List.Forall₂ (Fault c d) es es' →
    Fault c d (.expected label (Cursor.offset c) es) (.expected label (Cursor.offset d) es')
  named {c d e e'} (label : String) : Fault c d e e' → Fault c d (.named label e) (.named label e')

namespace Lockstep

variable {σ τ ε α β : Type} [Cursor σ ε] [Cursor τ ε] [Element ε] (L : Lockstep σ τ)

/-- Two ends of runs from `c` and `d`: if the first run finished, the second one did too, in the
same way. -/
inductive Replies (c : σ) (d : τ) : Option (Reply σ α) → Option (Reply τ α) → Prop
  | never {r} : Replies c d none r
  | ok {v x y} : L.Reach c d x y → Replies c d (some ⟨.ok v, x⟩) (some ⟨.ok v, y⟩)
  | error {e f x y} : L.Fault c d e f → L.Reach c d x y →
    Replies c d (some ⟨.error e, x⟩) (some ⟨.error f, y⟩)

/-- From wherever two runs may begin, `q` does what `p` does. -/
def Agree (p : Parser σ α) (q : Parser τ α) : Prop :=
  ∀ c d, L.Reach c d c d → L.Replies c d (p c) (q d)

variable {L} {p p₁ : Parser σ α} {q q₁ : Parser τ α}

theorem Replies.after {c c' : σ} {d d' : τ} {x : Option (Reply σ α)} {y : Option (Reply τ α)}
    (h : L.Reach c d c' d') : L.Replies c' d' x y → L.Replies c d x y
  | .never => .never
  | .ok h' => .ok (L.trans h h')
  | .error he h' => .error (L.later h he) (L.trans h h')

private theorem rel_swap {A B : Type} {R : A → B → Prop} {x : Option A} {y : Option B} :
    Option.Rel R x y → Option.Rel (fun b a => R a b) y x
  | .none => .none
  | .some h => .some h

def symm (L : Lockstep σ τ) : Lockstep τ σ where
  Reach d c d' c' := L.Reach c d c' d'
  Fault d c f e := L.Fault c d e f
  here := L.here
  trans := L.trans
  offset h := (L.offset h).symm
  read h := by
    have := rel_swap (L.read h)
    simpa only [eq_comm] using this
  unread h hd hc := rel_swap (L.unread h hc hd)
  restore := L.restore
  exhausted h := by
    have := rel_swap (L.exhausted h)
    simpa only [eq_comm] using this
  visit := L.visit
  later := L.later
  endOfInput h hd hc := L.endOfInput h hc hd
  predicate m h hd hc := L.predicate m h hc hd
  nothingToUnread h hd hc hd' hc' := L.nothingToUnread h hc hd hc' hd'
  unparsed h hd hc hd' hc' := L.unparsed h hc hd hc' hd'
  failure := L.failure
  transform := L.transform
  alternatives := L.alternatives
  expected label h hs := L.expected label h hs.flip
  named := L.named

theorem Replies.swap {c : σ} {d : τ} {r : Reply σ α} {r' : Reply τ α} :
    L.symm.Replies d c (some r') (some r) → L.Replies c d (some r) (some r')
  | .ok h => .ok h
  | .error he h => .error he h

/-! ## Sequences -/

theorem Agree.pure (v : α) : L.Agree (Parser.pure v) (Parser.pure v) := fun _ _ h => .ok h

theorem Agree.andThen {f : α → Parser σ β} {g : α → Parser τ β} (hp : L.Agree p q)
    (hf : ∀ v, L.Agree (f v) (g v)) : L.Agree (p.andThen f) (q.andThen g) := by
  intro c d h
  unfold Parser.andThen
  match p c, q d, hp c d h with
  | _, _, .never => exact .never
  | _, _, .error he h' => exact .error he h'
  | _, _, .ok h' => exact (hf _ _ _ (L.here h')).after h'

theorem Agree.map (f : α → β) (hp : L.Agree p q) : L.Agree (p.map f) (q.map f) :=
  hp.andThen fun _ => .pure _

theorem Agree.right {p' : Parser σ β} {q' : Parser τ β} (hp : L.Agree p q) (hq : L.Agree p' q') :
    L.Agree (p.right p') (q.right q') := hp.andThen fun _ => hq

theorem Agree.left {p' : Parser σ β} {q' : Parser τ β} (hp : L.Agree p q) (hq : L.Agree p' q') :
    L.Agree (p.left p') (q.left q') := hp.andThen fun _ => hq.map _

theorem Agree.pair {p' : Parser σ β} {q' : Parser τ β} (hp : L.Agree p q) (hq : L.Agree p' q') :
    L.Agree (p.pair p') (q.pair q') := hp.andThen fun _ => hq.map _

theorem Agree.all : {n : Nat} → {θ : Fin n → Type} → {ps : ∀ i, Parser σ (θ i)} →
    {qs : ∀ i, Parser τ (θ i)} → (∀ i, L.Agree (ps i) (qs i)) →
    L.Agree (Parser.all ps) (Parser.all qs)
  | 0, _, _, _, _ => .pure _
  | _ + 1, _, _, _, h => (h 0).andThen fun _ => (all fun i => h i.succ).map _

theorem Agree.countFrom (hp : L.Agree p q) :
    ∀ (n : Nat) (values : List α), L.Agree (p.countFrom n values) (q.countFrom n values)
  | 0, _ => .pure _
  | n + 1, values => hp.andThen fun v => hp.countFrom n (v :: values)

theorem Agree.count (hp : L.Agree p q) (size n : Nat) :
    L.Agree (p.count size n) (q.count size n) := by
  unfold Parser.count
  split
  · exact hp.countFrom n []
  · exact fun _ _ _ => .never

theorem Agree.mapError {f : ParseError → ParseError}
    (hf : ∀ {c d e e'}, L.Fault c d e e' → L.Fault c d (f e) (f e')) (hp : L.Agree p q) :
    L.Agree (p.mapError f) (q.mapError f) := by
  intro c d h
  unfold Parser.mapError
  match p c, q d, hp c d h with
  | _, _, .never => exact .never
  | _, _, .error he h' => exact .error (hf he) h'
  | _, _, .ok h' => exact .ok h'

theorem Agree.tryMap (f : α → Except String β) (hp : L.Agree p q) :
    L.Agree (p.tryMap f) (q.tryMap f) := by
  intro c d h
  unfold Parser.tryMap Parser.andThen
  match p c, q d, hp c d h with
  | _, _, .never => exact .never
  | _, _, .error he h' => exact .error he h'
  | _, _, .ok (v := v) h' =>
    dsimp only
    cases f v with
    | ok w => exact .ok h'
    | error m => exact .error (L.transform m h) h'

theorem Agree.check (ok : α → Bool) (message : α → String) (hp : L.Agree p q) :
    L.Agree (p.check ok message) (q.check ok message) := by
  intro c d h
  unfold Parser.check Parser.andThen
  match p c, q d, hp c d h with
  | _, _, .never => exact .never
  | _, _, .error he h' => exact .error he h'
  | _, _, .ok (v := v) h' =>
    dsimp only
    cases ok v with
    | true => exact .ok h'
    | false => exact .error (L.failure (message v) h) h'

/-! ## Elements -/

theorem Agree.any : L.Agree (Parser.any : Parser σ ε) (Parser.any : Parser τ ε) := by
  intro c d h
  have hr := L.read h
  unfold Parser.any
  match hc : Cursor.read c, hd : Cursor.read d, hr with
  | none, none, _ => exact .never
  | some (none, c'), some (_, d'), .some ⟨he, h'⟩ =>
    subst he
    exact .error (L.endOfInput h hc hd) h'
  | some (some x, c'), some (_, d'), .some ⟨he, h'⟩ =>
    subst he
    exact .ok h'

theorem Agree.item (rule : ε → Except String Unit) :
    L.Agree (Parser.item rule : Parser σ ε) (Parser.item rule : Parser τ ε) := by
  intro c d h
  have hr := L.read h
  unfold Parser.item Parser.andThen Parser.any
  match hc : Cursor.read c, hd : Cursor.read d, hr with
  | none, none, _ => exact .never
  | some (none, c'), some (_, d'), .some ⟨he, h'⟩ =>
    subst he
    dsimp only
    exact .error (L.endOfInput h hc hd) h'
  | some (some x, c'), some (_, d'), .some ⟨he, h'⟩ =>
    subst he
    dsimp only
    cases rule x with
    | ok u => exact .ok h'
    | error m =>
      have hu := L.unread h hc hd
      dsimp only
      match hb : Cursor.unread c', hb' : Cursor.unread d', hu with
      | none, none, _ => exact .error (L.nothingToUnread h hc hd hb hb') h'
      | some b, some b', .some hback => exact .error (L.predicate m h hc hd) hback

theorem Agree.fail (message : String) :
    L.Agree (Parser.fail message : Parser σ α) (Parser.fail message : Parser τ α) :=
  fun _ _ h => .error (L.failure message h) h

theorem Agree.eof : L.Agree (Parser.eof : Parser σ Unit) (Parser.eof : Parser τ Unit) := by
  intro c d h
  have he := L.exhausted h
  unfold Parser.eof
  match hc : Cursor.exhausted c, hd : Cursor.exhausted d, he with
  | none, none, _ => exact .never
  | some (true, c'), some (_, d'), .some ⟨he, h'⟩ =>
    subst he
    exact .ok h'
  | some (false, c'), some (_, d'), .some ⟨he, h'⟩ =>
    subst he
    have hr := L.read (L.here h')
    dsimp only
    match hc' : Cursor.read c', hd' : Cursor.read d', hr with
    | none, none, _ => exact .never
    | some (x, c''), some (_, d''), .some ⟨hx, h''⟩ =>
      subst hx
      exact .error (L.unparsed h hc hd hc' hd') (L.trans h' (L.restore h''))

theorem Agree.finish (hp : L.Agree p q) : L.Agree p.finish q.finish := hp.left .eof

/-! ## Choice -/

theorem Agree.or (hp : L.Agree p q) (hp₁ : L.Agree p₁ q₁) : L.Agree (p.or p₁) (q.or q₁) := by
  intro c d h
  unfold Parser.or
  match p c, q d, hp c d h with
  | _, _, .never => exact .never
  | _, _, .ok h' => exact .ok h'
  | _, _, .error (x := c') (y := d') he h' =>
    dsimp only
    by_cases hn : Cursor.offset c' = Cursor.offset c
    · rw [if_pos hn, if_pos ((L.offset h').1 hn)]
      match p₁ c', q₁ d', (hp₁ c' d' (L.here h')).after h' with
      | _, _, .never => exact .never
      | _, _, .ok h'' => exact .ok h''
      | _, _, .error (x := c'') (y := d'') hf h'' =>
        dsimp only
        by_cases hn' : Cursor.offset c'' = Cursor.offset c
        · rw [if_pos hn', if_pos ((L.offset h'').1 hn')]
          exact .error (L.alternatives h he hf) h''
        · rw [if_neg hn', if_neg (mt (L.offset h'').2 hn')]
          exact .error hf h''
    · rw [if_neg hn, if_neg (mt (L.offset h').2 hn)]
      exact .error he h'

theorem Agree.attempt (hp : L.Agree p q) : L.Agree p.attempt q.attempt := by
  intro c d h
  unfold Parser.attempt
  match p c, q d, hp c d h with
  | _, _, .never => exact .never
  | _, _, .ok h' => exact .ok h'
  | _, _, .error he h' => exact .error he (L.restore h')

theorem Agree.lookAhead (hp : L.Agree p q) : L.Agree p.lookAhead q.lookAhead := by
  intro c d h
  unfold Parser.lookAhead
  match p c, q d, hp c d h with
  | _, _, .never => exact .never
  | _, _, .ok h' => exact .ok (L.restore h')
  | _, _, .error he h' => exact .error he (L.restore h')

theorem Agree.opt (hp : L.Agree p q) : L.Agree p.opt q.opt := by
  intro c d h
  unfold Parser.opt
  match p c, q d, hp c d h with
  | _, _, .never => exact .never
  | _, _, .ok h' => exact .ok h'
  | _, _, .error _ h' => exact .ok (L.restore h')

/-- A choice that began at `c` and `d` and has not consumed anything since. -/
theorem Agree.choiceFrom (label : String) {c : σ} {d : τ} (h : L.Reach c d c d) :
    ∀ {ps : List (Parser σ α)} {qs : List (Parser τ α)} {causes causes' : List ParseError}
      {c' : σ} {d' : τ}, List.Forall₂ L.Agree ps qs → List.Forall₂ (L.Fault c d) causes causes' →
      L.Reach c d c' d' →
      L.Replies c d (Parser.choiceFrom label (Cursor.offset c) ps causes c')
        (Parser.choiceFrom label (Cursor.offset d) qs causes' d')
  | [], _, _, _, _, _, .nil, hcs, h' =>
    .error (L.expected label h (List.forall₂_reverse_iff.2 hcs)) h'
  | p :: ps, _, causes, causes', c', d', .cons (b := q) hp hps, hcs, h' => by
    unfold Parser.choiceFrom
    match p c', q d', (hp c' d' (L.here h')).after h' with
    | _, _, .never => exact .never
    | _, _, .ok h'' => exact .ok h''
    | _, _, .error (x := c'') (y := d'') he h'' =>
      have hcs' := List.Forall₂.cons he hcs
      dsimp only
      by_cases hn : Cursor.offset c'' = Cursor.offset c
      · rw [if_pos hn, if_pos ((L.offset h'').1 hn)]
        exact choiceFrom label h hps hcs' h''
      · rw [if_neg hn, if_neg (mt (L.offset h'').2 hn)]
        exact .error (L.expected label h (List.forall₂_reverse_iff.2 hcs')) h''

theorem Agree.choice (label : String) {ps : List (Parser σ α)} {qs : List (Parser τ α)}
    (h : List.Forall₂ L.Agree ps qs) : L.Agree (Parser.choice label ps) (Parser.choice label qs) :=
  fun _ _ hcd => Agree.choiceFrom label hcd h .nil hcd

theorem Agree.tryChoice (label : String) : ∀ {ps : List (Parser σ α)} {qs : List (Parser τ α)},
    List.Forall₂ L.Agree ps qs → L.Agree (Parser.tryChoice label ps) (Parser.tryChoice label qs)
  | [], _, .nil => fun _ _ h => .error (L.expected label h .nil) h
  | [_], _, .cons hp .nil => hp
  | p :: p₁ :: ps, q :: q₁ :: qs, .cons hp hps => by
    intro c d h
    unfold Parser.tryChoice
    match p c, q d, hp c d h with
    | _, _, .never => exact .never
    | _, _, .ok h' => exact .ok h'
    | _, _, .error _ h' =>
      have hb := L.restore h'
      exact (tryChoice label hps _ _ (L.here hb)).after hb

/-! ## Loops

By induction on the fuel of the first run: an iteration that consumes leads to the same loop with
one unit less, and any other ends both runs. -/

theorem Agree.manyFrom (hp : L.Agree p q) : ∀ {n m : Nat} (_ : n ≤ m) (values : List α),
    L.Agree (p.manyFrom n values) (q.manyFrom m values)
  | 0, _, _, _ => fun _ _ _ => .never
  | n + 1, m + 1, hnm, values => by
    intro c d h
    rw [Parser.manyFrom_succ, Parser.manyFrom_succ]
    match p c, q d, hp c d h with
    | _, _, .never => exact .never
    | _, _, .error _ h' => exact .ok (L.restore h')
    | _, _, .ok (v := v) (x := c') h' =>
      dsimp only
      by_cases hn : Cursor.offset c' = Cursor.offset c
      · rw [if_pos hn, if_pos ((L.offset h').1 hn)]
        exact .ok h'
      · rw [if_neg hn, if_neg (mt (L.offset h').2 hn)]
        exact (hp.manyFrom (Nat.le_of_succ_le_succ hnm) _ _ _ (L.here h')).after h'

theorem Agree.skipMany (hp : L.Agree p q) {n m : Nat} (hnm : n ≤ m) :
    L.Agree (p.skipMany n) (q.skipMany m) := by
  rw [Parser.skipMany_eq_many, Parser.skipMany_eq_many]
  exact (hp.manyFrom hnm []).map _

theorem Agree.sepFrom {sep : Parser σ β} {sep' : Parser τ β} (hs : L.Agree sep sep')
    (hp : L.Agree p q) {n m : Nat} (hnm : n ≤ m) (values : List α) :
    L.Agree (Parser.sepFrom sep p n values) (Parser.sepFrom sep' q m values) := by
  rw [Parser.sepFrom_eq_manyFrom, Parser.sepFrom_eq_manyFrom]
  exact (hs.right hp).manyFrom hnm values

theorem Agree.sepBy {sep : Parser σ β} {sep' : Parser τ β} (hs : L.Agree sep sep')
    (hp : L.Agree p q) {n m : Nat} (hnm : n ≤ m) :
    L.Agree (Parser.sepBy n sep p) (Parser.sepBy m sep' q) := by
  intro c d h
  unfold Parser.sepBy
  match p c, q d, hp c d h with
  | _, _, .never => exact .never
  | _, _, .error _ h' => exact .ok (L.restore h')
  | _, _, .ok h' => exact (Agree.sepFrom hs hp hnm _ _ _ (L.here h')).after h'

theorem Agree.tillFrom {stop : Parser σ β} {stop' : Parser τ β} (hp : L.Agree p q)
    (hs : L.Agree stop stop') : ∀ {n m : Nat} (_ : n ≤ m) (values : List α),
    L.Agree (p.tillFrom stop n values) (q.tillFrom stop' m values)
  | 0, _, _, _ => fun _ _ _ => .never
  | n + 1, m + 1, hnm, values => by
    intro c d h
    rw [Parser.tillFrom_succ, Parser.tillFrom_succ]
    match stop c, stop' d, hs c d h with
    | _, _, .never => exact .never
    | _, _, .ok h' => exact .ok h'
    | _, _, .error (x := c') (y := d') he h' =>
      have hb := L.restore h'
      dsimp only
      match p (Cursor.restore c' c), q (Cursor.restore d' d), hp _ _ (L.here hb) with
      | _, _, .never => exact .never
      | _, _, .error hf h'' => exact .error (L.later hb hf) (L.trans hb h'')
      | _, _, .ok (x := c'') h'' =>
        dsimp only
        by_cases hn : Cursor.offset c'' = Cursor.offset (Cursor.restore c' c)
        · rw [if_pos hn, if_pos ((L.offset h'').1 hn)]
          exact .error he (L.trans hb h'')
        · rw [if_neg hn, if_neg (mt (L.offset h'').2 hn)]
          have h₂ := L.trans hb h''
          exact (hp.tillFrom hs (Nat.le_of_succ_le_succ hnm) _ _ _ (L.here h₂)).after h₂

theorem Agree.chainLeft {op : Parser σ (α → α → α)} {op' : Parser τ (α → α → α)}
    (hp : L.Agree p q) (ho : L.Agree op op') {n m : Nat} (hnm : n ≤ m) :
    L.Agree (p.chainLeft n op) (q.chainLeft m op') := by
  rw [Parser.chainLeft_eq_many, Parser.chainLeft_eq_many]
  exact hp.andThen fun _ => ((ho.pair hp).manyFrom hnm []).map _

theorem Agree.fixpoint {body : Parser σ α → Parser σ α} {body' : Parser τ α → Parser τ α}
    (h : ∀ {p q}, L.Agree p q → L.Agree (body p) (body' q)) : ∀ {n m : Nat} (_ : n ≤ m),
    L.Agree (Parser.fixpoint body n) (Parser.fixpoint body' m)
  | 0, _, _ => fun _ _ _ => .never
  | _ + 1, _ + 1, hnm => h (fixpoint h (Nat.le_of_succ_le_succ hnm))

/-! ## Grammars -/

/-- What two ends of the verdicts on a pair of runs may be. -/
inductive Verdicts (L : Lockstep σ τ) (c : σ) (d : τ) :
    Except ParseError α → Except ParseError α → Prop
  | ok {v} : Verdicts L c d (.ok v) (.ok v)
  | error {e e'} : L.Fault c d e e' → Verdicts L c d (.error e) (.error e')

/-- The parsers and the verdicts of a signature keep what `L` does. -/
structure Respects (L : Lockstep σ τ) (S : Signature) [Interprets S σ] [Interprets S τ] :
    Prop where
  prim {α : Type} (p : S.Prim α) : L.Agree (Interprets.prim p) (Interprets.prim p)
  scope {α β : Type} (s : S.Scope α β) (v : α) {c d c' d'} : L.Reach c d c' d' →
    L.Verdicts c d (Interprets.scope s c v c') (Interprets.scope s d v d')

/-- Those of a part of the signature do. -/
structure RespectsOn (L : Lockstep σ τ) {S : Signature} [Interprets S σ] [Interprets S τ]
    (P : S.Part) : Prop where
  prim {α : Type} {p : S.Prim α} : P.prim p → L.Agree (Interprets.prim p) (Interprets.prim p)
  scope {α β : Type} {s : S.Scope α β} (hs : P.scope s) (v : α) {c d c' d'} : L.Reach c d c' d' →
    L.Verdicts c d (Interprets.scope s c v c') (Interprets.scope s d v d')

theorem Respects.on {S : Signature} [Interprets S σ] [Interprets S τ] (h : L.Respects S)
    (P : S.Part) : L.RespectsOn P where
  prim _ := h.prim _
  scope _ v := h.scope _ v

theorem Agree.judge {f : σ → α → σ → Except ParseError β} {g : τ → α → τ → Except ParseError β}
    (hf : ∀ v {c d c' d'}, L.Reach c d c' d' → L.Verdicts c d (f c v c') (g d v d'))
    (hp : L.Agree p q) : L.Agree (p.judge f) (q.judge g) := by
  intro c d h
  unfold Parser.judge
  match p c, q d, hp c d h with
  | _, _, .never => exact .never
  | _, _, .error he h' => exact .error he h'
  | _, _, .ok (v := v) (x := c') (y := d') h' =>
    dsimp only
    match f c v c', g d v d', hf v h' with
    | _, _, .ok => exact .ok h'
    | _, _, .error he => exact .error he h'

end Lockstep

namespace Grammar

variable {σ τ ε : Type} {S : Signature} [Cursor σ ε] [Cursor τ ε] [Element ε] [Interprets S σ]
  [Interprets S τ] {L : Lockstep σ τ}

theorem forall₂_ofFn {A B : Type} {R : A → B → Prop} {n : Nat} {f : Fin n → A}
    {g : Fin n → B} (h : ∀ i, R (f i) (g i)) : List.Forall₂ R (List.ofFn f) (List.ofFn g) :=
  List.forall₂_iff_get.2 ⟨by simp, fun i hi _ => by simpa using h ⟨i, by simpa using hi⟩⟩

open Lockstep in
/-- Runs of a grammar agree when its bound parsers do, and what it uses of the signature. -/
theorem run_agree_on {P : S.Part} (hS : L.RespectsOn P) {n m : Nat} (hnm : n ≤ m) {Γ : List Type}
    {α : Type} (g : Grammar ε S Γ α) (hg : g.Within P) {ρ : Env σ Γ} {ρ' : Env τ Γ}
    (hρ : ∀ {β : Type} (v : Var Γ β), L.Agree (ρ v) (ρ' v)) :
    L.Agree (run n g ρ) (run m g ρ') := by
  induction g with
  | item _ rule => exact .item rule
  | any => exact .any
  | ret v => exact .pure v
  | fail message => exact .fail message
  | eof => exact .eof
  | finish p ih => exact (ih hg hρ).finish
  | map f p ih => exact (ih hg hρ).map f
  | tryMap f p ih => exact (ih hg hρ).tryMap f
  | check ok message p ih => exact (ih hg hρ).check ok message
  | bind p f ih ihf => exact (ih hg.1 hρ).andThen fun v => ihf v (hg.2 v) hρ
  | all _ ps ih => exact .all fun i => ih i (hg i) hρ
  | right p q ihp ihq => exact (ihp hg.1 hρ).right (ihq hg.2 hρ)
  | left p q ihp ihq => exact (ihp hg.1 hρ).left (ihq hg.2 hρ)
  | or p q ihp ihq => exact (ihp hg.1 hρ).or (ihq hg.2 hρ)
  | attempt p ih => exact (ih hg hρ).attempt
  | choice label ps ih => exact .choice label (forall₂_ofFn fun i => ih i (hg i) hρ)
  | tryChoice label ps ih => exact .tryChoice label (forall₂_ofFn fun i => ih i (hg i) hρ)
  | opt p ih => exact (ih hg hρ).opt
  | lookAhead p ih => exact (ih hg hρ).lookAhead
  | named label p ih => exact (ih hg hρ).mapError (L.named label)
  | many p ih => exact (ih hg hρ).manyFrom hnm []
  | many1 p ih => exact (ih hg hρ).andThen fun v => (ih hg hρ).manyFrom hnm [v]
  | count size k p ih => exact (ih hg hρ).count size k
  | sepBy sep p ihs ihp => exact .sepBy (ihs hg.2 hρ) (ihp hg.1 hρ) hnm
  | sepBy1 sep p ihs ihp =>
    exact (ihp hg.1 hρ).andThen fun v => .sepFrom (ihs hg.2 hρ) (ihp hg.1 hρ) hnm [v]
  | manyTill p stop ihp ihs => exact (ihp hg.1 hρ).tillFrom (ihs hg.2 hρ) hnm []
  | skipMany p ih => exact (ih hg hρ).skipMany hnm
  | skipMany1 p ih => exact (ih hg hρ).andThen fun _ => (ih hg hρ).skipMany hnm
  | chainLeft p op ihp iho => exact (ihp hg.1 hρ).chainLeft (iho hg.2 hρ) hnm
  | chainRight p op ihp iho =>
    exact (ihp hg.1 hρ).andThen fun x =>
      (((iho hg.2 hρ).pair (ihp hg.1 hρ)).manyFrom hnm []).map _
  | fix cell p ih =>
    refine .fixpoint (fun hself c d h => ?_) hnm
    have hv := L.visit cell h
    refine (ih hg (fun v => ?_) _ _ (L.here hv)).after hv
    cases v with
    | here => exact hself
    | there v => exact hρ v
  | ref v => exact hρ v
  | prim p => exact hS.prim hg
  | scope s p ih => exact (ih hg.2 hρ).judge fun v _ _ _ _ h => hS.scope hg.1 v h

/-- Runs of a grammar agree when its bound parsers do. -/
theorem run_agree (hS : L.Respects S) {n m : Nat} (hnm : n ≤ m) {Γ : List Type} {α : Type}
    (g : Grammar ε S Γ α) {ρ : Env σ Γ} {ρ' : Env τ Γ}
    (hρ : ∀ {β : Type} (v : Var Γ β), L.Agree (ρ v) (ρ' v)) :
    L.Agree (run n g ρ) (run m g ρ') :=
  run_agree_on (hS.on _) hnm g g.within_all hρ

theorem parser_agree (hS : L.Respects S) {n m : Nat} (hnm : n ≤ m) {α : Type}
    (g : Grammar ε S [] α) : L.Agree (g.parser n) (g.parser m) :=
  run_agree hS hnm g fun v => nomatch v

end Grammar
end Descent
