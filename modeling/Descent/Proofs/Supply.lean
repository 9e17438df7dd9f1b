import Descent.Proofs.Course

/-!
# Runs over a finite input

`Supply` is an input of which only so much is left: `Supply.left` never grows along a run, and
falls with every movement of the offset. A parser is `Total` up to `k` if each of its runs with at
most `k` left ends. The lemmas of this module carry totality through the combinators. Loops end
because an iteration that does not consume is their last one; a parser that follows another one in
sequence only has to be total below `k` if that one cannot succeed without consuming (`Follows`).
-/

namespace Descent

/-- No run of `p` succeeds without consuming. -/
def Parser.Consumes {σ ε α : Type} [Cursor σ ε] (p : Parser σ α) : Prop :=
  ∀ c v d, p c = some ⟨.ok v, d⟩ → Cursor.offset d ≠ Cursor.offset c

/-- A course along which a finite input is used up. -/
structure Supply (σ : Type) {ε : Type} [Cursor σ ε] extends Course σ where
  /-- The cursors whose source answers, for good. -/
  Ready : σ → Prop
  /-- A bound on what is left to read. -/
  left : σ → Nat
  ready {c d : σ} : Ahead c d → Ready c → Ready d
  left_le {c d : σ} : Ahead c d → Ready c → left d ≤ left c
  left_lt {c d : σ} : Ahead c d → Ready c → Cursor.offset d ≠ Cursor.offset c → left d < left c
  reads {c : σ} : Ready c → ∃ r, Cursor.read c = some r
  exhausts {c : σ} : Ready c → ∃ r, Cursor.exhausted c = some r

namespace Supply

variable {σ ε α β : Type} [Cursor σ ε] (P : Supply σ)

/-- Every run of `p` with at most `k` left ends. -/
def Total (p : Parser σ α) (k : Nat) : Prop := ∀ c, P.Ready c → P.left c ≤ k → ∃ r, p c = some r

/-- `q` is total after a success of `p` that began with at most `k` left. -/
structure Follows (p : Parser σ α) (q : Parser σ β) (k : Nat) : Prop where
  upTo : ¬ p.Consumes → P.Total q k
  below {j : Nat} : j < k → P.Total q j

variable {P} {p q : Parser σ α} {k : Nat}

theorem Total.mono {j : Nat} (h : P.Total p k) (hj : j ≤ k) : P.Total p j :=
  fun c hc hl => h c hc (Nat.le_trans hl hj)

theorem Total.follows {r : Parser σ β} (h : P.Total p k) : P.Follows r p k :=
  ⟨fun _ => h, fun hj => h.mono (Nat.le_of_lt hj)⟩

/-- A run that ends wherever the source answers. -/
theorem total_of_ready (h : ∀ c, P.Ready c → ∃ r, p c = some r) : P.Total p k :=
  fun c hc _ => h c hc

/-- A run that ends if the run of `p` does. -/
theorem Total.of_ends {q : Parser σ β} (hp : P.Total p k)
    (h : ∀ c result d, p c = some ⟨result, d⟩ → ∃ r, q c = some r) : P.Total q k := by
  intro c hc hl
  obtain ⟨⟨result, d⟩, hr⟩ := hp c hc hl
  exact h c result d hr

/-! ## Sequences -/

/-- The place where a run stopped is one to start from. -/
theorem left_after (hm : P.Moves p) {c : σ} (hc : P.Ready c) (hl : P.left c ≤ k)
    {r : Reply σ α} (h : p c = some r) : P.Ready r.cursor ∧ P.left r.cursor ≤ k :=
  ⟨P.ready (hm c r h) hc, Nat.le_trans (P.left_le (hm c r h) hc) hl⟩

theorem Total.andThen {f : α → Parser σ β} (hp : P.Total p k) (hm : P.Moves p)
    (hf : ∀ v, P.Follows p (f v) k) : P.Total (p.andThen f) k := by
  intro c hc hl
  obtain ⟨r, hr⟩ := hp c hc hl
  unfold Parser.andThen
  rw [hr]
  obtain ⟨result, d⟩ := r
  cases result with
  | error e => exact ⟨_, rfl⟩
  | ok v =>
    obtain ⟨hd, hl'⟩ := left_after hm hc hl hr
    by_cases ha : p.Consumes
    · -- `p` has used something up
      have hlt := Nat.lt_of_lt_of_le (P.left_lt (hm c _ hr) hc (ha c v d hr)) hl
      exact (hf v).below hlt d hd (Nat.le_refl _)
    · exact (hf v).upTo ha d hd hl'

theorem total_pure (v : α) : P.Total (Parser.pure v) k := total_of_ready fun _ _ => ⟨_, rfl⟩

theorem Total.map (f : α → β) (hp : P.Total p k) : P.Total (p.map f) k := by
  refine hp.of_ends fun c result d hr => ?_
  unfold Parser.map Parser.andThen
  rw [hr]
  cases result <;> exact ⟨_, rfl⟩

theorem Total.tryMap (f : α → Except String β) (hp : P.Total p k) : P.Total (p.tryMap f) k := by
  refine hp.of_ends fun c result d hr => ?_
  unfold Parser.tryMap Parser.andThen
  rw [hr]
  cases result with
  | error e => exact ⟨_, rfl⟩
  | ok v =>
    dsimp only
    cases f v <;> exact ⟨_, rfl⟩

theorem Total.check (ok : α → Bool) (message : α → String) (hp : P.Total p k) :
    P.Total (p.check ok message) k := by
  refine hp.of_ends fun c result d hr => ?_
  unfold Parser.check Parser.andThen
  rw [hr]
  cases result with
  | error e => exact ⟨_, rfl⟩
  | ok v =>
    dsimp only
    cases ok v <;> exact ⟨_, rfl⟩

theorem Total.mapError (f : ParseError → ParseError) (hp : P.Total p k) :
    P.Total (p.mapError f) k := by
  refine hp.of_ends fun c result d hr => ?_
  unfold Parser.mapError
  rw [hr]
  cases result <;> exact ⟨_, rfl⟩

theorem Total.judge (f : σ → α → σ → Except ParseError β) (hp : P.Total p k) :
    P.Total (p.judge f) k := by
  refine hp.of_ends fun c result d hr => ?_
  unfold Parser.judge
  rw [hr]
  cases result <;> exact ⟨_, rfl⟩

theorem Total.pair {q : Parser σ β} (hp : P.Total p k) (hm : P.Moves p) (hq : P.Follows p q k) :
    P.Total (p.pair q) k :=
  hp.andThen hm fun _ => ⟨fun h => (hq.upTo h).map _, fun h => (hq.below h).map _⟩

theorem Total.all : ∀ {n k : Nat} {θ : Fin n → Type} {ps : ∀ i, Parser σ (θ i)},
    (∀ i, P.Moves (ps i)) → (∀ i, (∀ j < i, ¬ (ps j).Consumes) → P.Total (ps i) k) →
    (∀ i, ∀ j < k, P.Total (ps i) j) → P.Total (Parser.all ps) k
  | 0, _, _, _, _, _, _ => total_pure _
  | n + 1, k, _, ps, hm, hk, hb => by
    refine (hk 0 fun j hj => absurd hj (Fin.not_lt_zero j)).andThen (hm 0) fun v => ⟨?_, ?_⟩
    · intro h₀
      refine (Total.all (fun i => hm i.succ) (fun i hi => ?_) fun i => hb i.succ).map _
      refine hk i.succ fun j hj => ?_
      cases j using Fin.cases with
      | zero => exact h₀
      | succ j => exact hi j (Fin.succ_lt_succ_iff.1 hj)
    · intro j hj
      have ht := fun i => hb (Fin.succ i) j hj
      exact (Total.all (fun i => hm i.succ) (fun i _ => ht i)
        fun i l hl => (ht i).mono (Nat.le_of_lt hl)).map _

theorem Total.countFrom (hp : P.Total p k) (hm : P.Moves p) :
    ∀ (n : Nat) (values : List α), P.Total (p.countFrom n values) k
  | 0, _ => total_pure _
  | n + 1, values => hp.andThen hm fun v => (hp.countFrom hm n (v :: values)).follows

theorem Total.count (hp : P.Total p k) (hm : P.Moves p) {size n : Nat}
    (hn : size * n ≤ Parser.largestAllocation) : P.Total (p.count size n) k := by
  unfold Parser.count
  rw [if_pos hn]
  exact hp.countFrom hm n []

/-! ## Elements -/

theorem total_any : P.Total (Parser.any : Parser σ ε) k := by
  refine total_of_ready fun c hc => ?_
  obtain ⟨⟨x, d⟩, hr⟩ := P.reads hc
  unfold Parser.any
  rw [hr]
  cases x <;> exact ⟨_, rfl⟩

section Shown

variable [Element ε]

theorem total_item (rule : ε → Except String Unit) : P.Total (Parser.item rule : Parser σ ε) k := by
  refine total_of_ready fun c hc => ?_
  obtain ⟨⟨x, d⟩, hr⟩ := P.reads hc
  unfold Parser.item Parser.andThen Parser.any
  rw [hr]
  cases x with
  | none => exact ⟨_, rfl⟩
  | some x =>
    dsimp only
    cases rule x with
    | ok u => exact ⟨_, rfl⟩
    | error m =>
      dsimp only
      cases Cursor.unread d <;> exact ⟨_, rfl⟩

theorem total_eof : P.Total (Parser.eof : Parser σ Unit) k := by
  refine total_of_ready fun c hc => ?_
  obtain ⟨⟨b, d⟩, he⟩ := P.exhausts hc
  obtain ⟨⟨x, now⟩, hr⟩ := P.reads (P.ready (P.exhausted he) hc)
  unfold Parser.eof
  rw [he]
  cases b with
  | true => exact ⟨_, rfl⟩
  | false =>
    dsimp only
    rw [hr]
    exact ⟨_, rfl⟩

theorem Total.finish (hp : P.Total p k) (hm : P.Moves p) : P.Total p.finish k :=
  hp.andThen hm fun _ => (total_eof.map _).follows

end Shown

/-! ## Choice -/

theorem Total.or (hp : P.Total p k) (hm : P.Moves p) (hq : P.Total q k) : P.Total (p.or q) k := by
  intro c hc hl
  obtain ⟨⟨result, d⟩, hr⟩ := hp c hc hl
  obtain ⟨hd, hl'⟩ := left_after hm hc hl hr
  unfold Parser.or
  rw [hr]
  cases result with
  | ok v => exact ⟨_, rfl⟩
  | error e =>
    dsimp only
    by_cases hn : Cursor.offset d = Cursor.offset c
    · obtain ⟨⟨result', d'⟩, hr'⟩ := hq d hd hl'
      rw [if_pos hn, hr']
      cases result' with
      | ok v => exact ⟨_, rfl⟩
      | error f =>
        dsimp only
        split <;> exact ⟨_, rfl⟩
    · rw [if_neg hn]
      exact ⟨_, rfl⟩

theorem Total.attempt (hp : P.Total p k) : P.Total p.attempt k := by
  refine hp.of_ends fun c result d hr => ?_
  unfold Parser.attempt
  rw [hr]
  cases result <;> exact ⟨_, rfl⟩

theorem Total.lookAhead (hp : P.Total p k) : P.Total p.lookAhead k := by
  refine hp.of_ends fun c result d hr => ?_
  unfold Parser.lookAhead
  rw [hr]
  exact ⟨_, rfl⟩

theorem Total.opt (hp : P.Total p k) : P.Total p.opt k := by
  refine hp.of_ends fun c result d hr => ?_
  unfold Parser.opt
  rw [hr]
  cases result <;> exact ⟨_, rfl⟩

theorem Total.choiceFrom (label : String) (start : Nat) : ∀ {ps : List (Parser σ α)}
    (causes : List ParseError), (∀ p ∈ ps, P.Total p k ∧ P.Moves p) →
    P.Total (Parser.choiceFrom label start ps causes) k
  | [], _, _ => total_of_ready fun _ _ => ⟨_, rfl⟩
  | p :: ps, causes, h => by
    intro c hc hl
    obtain ⟨hp, hps⟩ := List.forall_mem_cons.1 h
    obtain ⟨⟨result, d⟩, hr⟩ := hp.1 c hc hl
    obtain ⟨hd, hl'⟩ := left_after hp.2 hc hl hr
    unfold Parser.choiceFrom
    rw [hr]
    cases result with
    | ok v => exact ⟨_, rfl⟩
    | error e =>
      dsimp only
      by_cases hn : Cursor.offset d = start
      · rw [if_pos hn]
        exact choiceFrom label start (e :: causes) hps d hd hl'
      · rw [if_neg hn]
        exact ⟨_, rfl⟩

theorem Total.choice (label : String) {ps : List (Parser σ α)}
    (h : ∀ p ∈ ps, P.Total p k ∧ P.Moves p) : P.Total (Parser.choice label ps) k :=
  fun c hc hl => Total.choiceFrom label (Cursor.offset c) [] h c hc hl

theorem Total.tryChoice (label : String) : ∀ {ps : List (Parser σ α)},
    (∀ p ∈ ps, P.Total p k ∧ P.Moves p) → P.Total (Parser.tryChoice label ps) k
  | [], _ => total_of_ready fun _ _ => ⟨_, rfl⟩
  | [p], h => (h p (List.mem_singleton_self p)).1
  | p :: q :: ps, h => by
    intro c hc hl
    obtain ⟨hp, hps⟩ := List.forall_mem_cons.1 h
    obtain ⟨⟨result, d⟩, hr⟩ := hp.1 c hc hl
    unfold Parser.tryChoice
    rw [hr]
    cases result with
    | ok v => exact ⟨_, rfl⟩
    | error e =>
      have hb := P.restore (hp.2 c _ hr)
      exact tryChoice label hps _ (P.ready hb hc) (Nat.le_trans (P.left_le hb hc) hl)

/-! ## Loops

The fuel of a loop is more than what is left, and each iteration but the last uses something up. -/

theorem Total.manyFrom (hp : P.Total p k) (hm : P.Moves p) : ∀ {fuel j : Nat} (values : List α),
    j < fuel → j ≤ k → P.Total (p.manyFrom fuel values) j
  | fuel + 1, j, values, hf, hj => by
    intro c hc hl
    obtain ⟨⟨result, d⟩, hr⟩ := hp c hc (Nat.le_trans hl hj)
    rw [Parser.manyFrom_succ, hr]
    cases result with
    | error e => exact ⟨_, rfl⟩
    | ok v =>
      dsimp only
      by_cases hn : Cursor.offset d = Cursor.offset c
      · rw [if_pos hn]
        exact ⟨_, rfl⟩
      · have ha : P.Ahead c d := hm c _ hr
        have hlt := P.left_lt ha hc hn
        rw [if_neg hn]
        exact hp.manyFrom hm (j := P.left d) (v :: values) (by omega) (by omega) d
          (P.ready ha hc) (Nat.le_refl _)

theorem Total.tillFrom {stop : Parser σ β} (hp : P.Total p k) (hm : P.Moves p)
    (hs : P.Total stop k) (hms : P.Moves stop) : ∀ {fuel j : Nat} (values : List α),
    j < fuel → j ≤ k → P.Total (p.tillFrom stop fuel values) j
  | fuel + 1, j, values, hf, hj => by
    intro c hc hl
    obtain ⟨⟨result, d⟩, hr⟩ := hs c hc (Nat.le_trans hl hj)
    rw [Parser.tillFrom_succ, hr]
    cases result with
    | ok v => exact ⟨_, rfl⟩
    | error e =>
      have hb : P.Ahead c (Cursor.restore d c) := P.restore (hms c _ hr)
      have hbc := P.ready hb hc
      have hbl := P.left_le hb hc
      dsimp only
      obtain ⟨⟨result', d'⟩, hr'⟩ := hp (Cursor.restore d c) hbc (by omega)
      rw [hr']
      cases result' with
      | error f => exact ⟨_, rfl⟩
      | ok v =>
        dsimp only
        by_cases hn : Cursor.offset d' = Cursor.offset (Cursor.restore d c)
        · rw [if_pos hn]
          exact ⟨_, rfl⟩
        · have ha : P.Ahead _ d' := hm _ _ hr'
          have hlt := P.left_lt ha hbc hn
          rw [if_neg hn]
          exact hp.tillFrom hm hs hms (j := P.left d') (v :: values) (by omega) (by omega) d'
            (P.ready ha hbc) (Nat.le_refl _)

theorem Total.skipMany (hp : P.Total p k) (hm : P.Moves p) {fuel : Nat} (hk : k < fuel) :
    P.Total (p.skipMany fuel) k := by
  rw [Parser.skipMany_eq_many]
  exact (hp.manyFrom hm [] hk (Nat.le_refl k)).map _

section Steps

variable {s : Parser σ β} {fuel : Nat}

/-- Steps that begin with `s`, one after the other, after a run of `p`. -/
theorem Follows.manyFrom (h : P.Follows p s k) (hs : P.Moves s) (hk : k < fuel)
    (values : List β) : P.Follows p (s.manyFrom fuel values) k where
  upTo ha := (h.upTo ha).manyFrom hs values hk (Nat.le_refl k)
  below hj := (h.below hj).manyFrom hs values (Nat.lt_trans hj hk) (Nat.le_refl _)

theorem Follows.map {γ : Type} (f : β → γ) (h : P.Follows p s k) : P.Follows p (s.map f) k :=
  ⟨fun ha => (h.upTo ha).map f, fun hj => (h.below hj).map f⟩

theorem Follows.right (h : P.Follows p s k) (hs : P.Moves s) (hp : P.Total p k) :
    P.Follows p (s.right p) k where
  upTo ha := (h.upTo ha).andThen hs fun _ => hp.follows
  below hj := (h.below hj).andThen hs fun _ => (hp.mono (Nat.le_of_lt hj)).follows

theorem Follows.pair (h : P.Follows p s k) (hs : P.Moves s) (hp : P.Total p k) :
    P.Follows p (s.pair p) k where
  upTo ha := (h.upTo ha).pair hs hp.follows
  below hj := (h.below hj).pair hs (hp.mono (Nat.le_of_lt hj)).follows

theorem Follows.sepFrom [Element ε] (h : P.Follows p s k) (hs : P.Moves s) (hp : P.Total p k)
    (hm : P.Moves p) (hk : k < fuel) (values : List α) :
    P.Follows p (Parser.sepFrom s p fuel values) k := by
  rw [Parser.sepFrom_eq_manyFrom]
  exact (h.right hs hp).manyFrom (hs.right hm) hk values

theorem Total.sepBy1 [Element ε] (hp : P.Total p k) (hm : P.Moves p) (h : P.Follows p s k)
    (hs : P.Moves s) (hk : k < fuel) : P.Total (Parser.sepBy1 fuel s p) k :=
  hp.andThen hm fun v => h.sepFrom hs hp hm hk [v]

/-- The optional form is the other one, or nothing. -/
theorem Total.sepBy [Element ε] (hp : P.Total p k) (hm : P.Moves p) (h : P.Follows p s k)
    (hs : P.Moves s) (hk : k < fuel) : P.Total (Parser.sepBy fuel s p) k := by
  intro c hc hl
  obtain ⟨r, hr⟩ := hp.sepBy1 hm h hs hk c hc hl
  obtain ⟨⟨result, d⟩, hd⟩ := hp c hc hl
  unfold Parser.sepBy
  unfold Parser.sepBy1 Parser.andThen at hr
  rw [hd] at hr ⊢
  cases result with
  | error e => exact ⟨_, rfl⟩
  | ok v => exact ⟨r, hr⟩

/-- Steps of an operator and an operand, with their values put together at the end. -/
theorem Total.chain [Element ε] {γ : Type} {op : Parser σ γ} (f : α → List (γ × α) → β)
    (hp : P.Total p k) (hm : P.Moves p) (h : P.Follows p op k) (ho : P.Moves op) (hk : k < fuel) :
    P.Total (p.andThen fun first => ((op.pair p).manyFrom fuel []).map (f first)) k :=
  hp.andThen hm fun first => ((h.pair ho hp).manyFrom (ho.pair hm) hk []).map (f first)

end Steps

/-! ## Recursion -/

/-- A definition entered at most `n` times, each time but the first with less left. -/
theorem total_fixpoint {body : Parser σ α → Parser σ α} {n : Nat}
    (h : ∀ depth < n, ∀ j ≤ k, (∀ i < j, P.Total (Parser.fixpoint body depth) i) →
      P.Total (body (Parser.fixpoint body depth)) j) :
    ∀ {depth j : Nat}, depth ≤ n → j < depth → j ≤ k → P.Total (Parser.fixpoint body depth) j
  | depth + 1, j, hd, hj, hk => h depth hd j hk fun i hi =>
    total_fixpoint h (Nat.le_of_succ_le hd) (by omega) (by omega)

end Supply
end Descent
