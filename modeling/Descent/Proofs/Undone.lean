import Descent.Proofs.Alike
import Descent.Proofs.Repetition

/-!
# Undone runs leave no trace

Most combinators go back when a run of one of their parts has failed, each to a checkpoint of its
own. `TraceFree` says of each of them that whatever follows then does what it does at the checkpoint
itself. Main theorem `undone_leaves_no_trace`: so it is from every cursor that can be reached on a
text, and on a fused source.
-/

namespace Descent

section

variable {σ ε V α β : Type} [Cursor σ ε] [Element ε] {S : Signature} [Interprets S σ]

/-- Rounds of a loop over `p`, each of which consumes. -/
inductive Rounds (p : Grammar ε S [] α) : σ → σ → Prop
  | none {c} : Rounds p c c
  | round {c d e v} : p.Returns c ⟨.ok v, d⟩ → Cursor.offset d ≠ Cursor.offset c →
    Rounds p d e → Rounds p c e

variable (S) (seen : σ → V)

/-- From `c` the grammar comes to the result, at a cursor like `place`. -/
def StopsAt {S : Signature} [Interprets S σ] (g : Grammar ε S [] α) (c : σ)
    (result : Except ParseError α) (place : σ) : Prop :=
  ∃ d, g.Returns c ⟨result, d⟩ ∧ Alike S seen d place

/-- What begins at `c` and is undone leaves no trace. -/
structure TraceFree (c : σ) : Prop where
  attempt {α : Type} {p : Grammar ε S [] α} {e : ParseError} {d : σ} :
    p.Returns c ⟨.error e, d⟩ → StopsAt seen (.attempt p) c (.error e) c
  opt {α : Type} {p : Grammar ε S [] α} {e : ParseError} {d : σ} :
    p.Returns c ⟨.error e, d⟩ → StopsAt seen (.opt p) c (.ok none) c
  orValue {α : Type} {p : Grammar ε S [] α} {e : ParseError} {d : σ} (v : α) :
    p.Returns c ⟨.error e, d⟩ → StopsAt seen (.orValue v p) c (.ok v) c
  /-- Also if the run succeeds. -/
  lookAhead {α : Type} {p : Grammar ε S [] α} {result : Except ParseError α} {d : σ} :
    p.Returns c ⟨result, d⟩ → StopsAt seen (.lookAhead p) c result c
  /-- After any number of rounds, as in the other loops. -/
  many {α : Type} {p : Grammar ε S [] α} {e : ParseError} {d x : σ} : Rounds p c d →
    p.Returns d ⟨.error e, x⟩ → ∃ vs, StopsAt seen (.many p) c (.ok vs) d
  skipMany {α : Type} {p : Grammar ε S [] α} {e : ParseError} {d x : σ} : Rounds p c d →
    p.Returns d ⟨.error e, x⟩ → StopsAt seen (.skipMany p) c (.ok ()) d
  /-- Without a first value. -/
  sepByNone {α β : Type} {sep : Grammar ε S [] β} {p : Grammar ε S [] α} {e : ParseError} {d : σ} :
    p.Returns c ⟨.error e, d⟩ → StopsAt seen (.sepBy sep p) c (.ok []) c
  /-- Before a separator without a value after it, or a failed separator. -/
  sepBy {α β : Type} {sep : Grammar ε S [] β} {p : Grammar ε S [] α} {v : α} {e : ParseError}
    {b d x : σ} : p.Returns c ⟨.ok v, b⟩ → Rounds (.right sep p) b d →
    (Grammar.right sep p).Returns d ⟨.error e, x⟩ → ∃ vs, StopsAt seen (.sepBy sep p) c (.ok vs) d
  sepBy1 {α β : Type} {sep : Grammar ε S [] β} {p : Grammar ε S [] α} {v : α} {e : ParseError}
    {b d x : σ} : p.Returns c ⟨.ok v, b⟩ → Rounds (.right sep p) b d →
    (Grammar.right sep p).Returns d ⟨.error e, x⟩ → ∃ vs, StopsAt seen (.sepBy1 sep p) c (.ok vs) d
  /-- Before an operator without an operand after it, or a failed operator. -/
  chainLeft {α : Type} {p : Grammar ε S [] α} {op : Grammar ε S [] (α → α → α)} {v : α}
    {e : ParseError} {b d x : σ} : p.Returns c ⟨.ok v, b⟩ → Rounds (.right op p) b d →
    (Grammar.right op p).Returns d ⟨.error e, x⟩ → ∃ w, StopsAt seen (.chainLeft p op) c (.ok w) d
  chainRight {α : Type} {p : Grammar ε S [] α} {op : Grammar ε S [] (α → α → α)} {v : α}
    {e : ParseError} {b d x : σ} : p.Returns c ⟨.ok v, b⟩ → Rounds (.right op p) b d →
    (Grammar.right op p).Returns d ⟨.error e, x⟩ → ∃ w, StopsAt seen (.chainRight p op) c (.ok w) d
  /-- The alternatives after those that fail run as if they were the only ones. -/
  tryChoice {α : Type} {ps : List (Grammar ε S [] α)} (label : String) (q : Grammar ε S [] α)
    (qs : List (Grammar ε S [] α)) : (∀ p ∈ ps, ∃ e d, p.Returns c ⟨.error e, d⟩) →
    ∃ c', Alike S seen c' c ∧ ∀ r,
      (Grammar.tryChoice label (Grammar.family (ps ++ q :: qs))).Returns c r ↔
        (Grammar.tryChoice label (Grammar.family (q :: qs))).Returns c' r
  /-- When the end fails, the next value is read as if it had not been tried. -/
  manyTill {α β : Type} {p : Grammar ε S [] α} {stop : Grammar ε S [] β} {e : ParseError} {d : σ} :
    stop.Returns c ⟨.error e, d⟩ → ∃ c', Alike S seen c' c ∧
      (∀ f x, p.Returns c' ⟨.error f, x⟩ → (Grammar.manyTill p stop).Returns c ⟨.error f, x⟩) ∧
      (∀ v x, p.Returns c' ⟨.ok v, x⟩ → Cursor.offset x = Cursor.offset c' →
        (Grammar.manyTill p stop).Returns c ⟨.error e, x⟩) ∧
      (∀ v x result y, p.Returns c' ⟨.ok v, x⟩ → Cursor.offset x ≠ Cursor.offset c' →
        (Grammar.manyTill p stop).Returns x ⟨result, y⟩ →
        (Grammar.manyTill p stop).Returns c ⟨result.map (v :: ·), y⟩)

end

/-! ## One run -/

namespace Parser

variable {σ ε α β : Type} [Cursor σ ε] {p : Parser σ α} {c d : σ} {e : ParseError}

theorem attempt_error (h : p c = some ⟨.error e, d⟩) :
    p.attempt c = some ⟨.error e, Cursor.restore d c⟩ := by
  unfold attempt
  rw [h]

theorem opt_error (h : p c = some ⟨.error e, d⟩) :
    p.opt c = some ⟨.ok none, Cursor.restore d c⟩ := by
  unfold opt
  rw [h]

theorem lookAhead_some {result : Except ParseError α} (h : p c = some ⟨result, d⟩) :
    p.lookAhead c = some ⟨result, Cursor.restore d c⟩ := by
  unfold lookAhead
  rw [h]

theorem sepBy_error {sep : Parser σ β} {n : Nat} (h : p c = some ⟨.error e, d⟩) :
    sepBy n sep p c = some ⟨.ok [], Cursor.restore d c⟩ := by
  unfold sepBy
  rw [h]

theorem map_some {f : α → β} {result : Except ParseError α} (h : p c = some ⟨result, d⟩) :
    p.map f c = some ⟨result.map f, d⟩ := by
  unfold map andThen
  rw [h]
  cases result <;> rfl

theorem andThen_ok {f : α → Parser σ β} {v : α} (h : p c = some ⟨.ok v, d⟩) :
    p.andThen f c = f v d := by
  unfold andThen
  rw [h]

theorem tryChoice_error {q : Parser σ α} {qs : List (Parser σ α)} (label : String)
    (h : p c = some ⟨.error e, d⟩) :
    tryChoice label (p :: q :: qs) c = tryChoice label (q :: qs) (Cursor.restore d c) := by
  simp only [tryChoice, h]

theorem tryChoice_none {q : Parser σ α} {qs : List (Parser σ α)} (label : String)
    (h : p c = none) : tryChoice label (p :: q :: qs) c = none := by
  simp only [tryChoice, h]

section Till

variable {stop : Parser σ β} {x : σ} (n : Nat) (values : List α)
  (hs : stop c = some ⟨.error e, d⟩)
include hs

theorem tillFrom_error {f : ParseError}
    (h : p (Cursor.restore d c) = some ⟨.error f, x⟩) :
    p.tillFrom stop (n + 1) values c = some ⟨.error f, x⟩ := by
  rw [tillFrom_succ, hs]
  simp only [h]

theorem tillFrom_stuck {v : α} (h : p (Cursor.restore d c) = some ⟨.ok v, x⟩)
    (hn : Cursor.offset x = Cursor.offset (Cursor.restore d c)) :
    p.tillFrom stop (n + 1) values c = some ⟨.error e, x⟩ := by
  rw [tillFrom_succ, hs]
  simp only [h, if_pos hn]

theorem tillFrom_round {v : α} (h : p (Cursor.restore d c) = some ⟨.ok v, x⟩)
    (hn : Cursor.offset x ≠ Cursor.offset (Cursor.restore d c)) :
    p.tillFrom stop (n + 1) values c = p.tillFrom stop n (v :: values) x := by
  rw [tillFrom_succ, hs]
  simp only [h, if_neg hn]

end Till

theorem sepBy_ok {sep : Parser σ β} {n : Nat} {v : α} (h : p c = some ⟨.ok v, d⟩) :
    sepBy n sep p c = sepFrom sep p n [v] d := by
  unfold sepBy
  rw [h]

end Parser

/-! ## Loops -/

section

variable {σ ε α β : Type} [Cursor σ ε] [Element ε] {S : Signature} [Interprets S σ]
  {p : Grammar ε S [] α} {c d x : σ} {e : ParseError}

theorem Rounds.passes (h : Rounds p c d) : ∃ vs, Passes p.Returns c vs d := by
  induction h with
  | none => exact ⟨[], .none⟩
  | round hr hne _ ih =>
    obtain ⟨vs, hvs⟩ := ih
    exact ⟨_, .pass hr hne hvs⟩

/-- After its rounds a loop ends at the start of the one that fails. -/
theorem Rounds.manyFrom (h : Rounds p c d) (hp : p.Returns d ⟨.error e, x⟩) :
    ∃ m, ∀ n, m ≤ n → ∀ fuel, m ≤ fuel → ∀ values, ∃ vs,
      (p.parser n : Parser σ α).manyFrom fuel values c = some ⟨.ok vs, Cursor.restore x d⟩ := by
  obtain ⟨vs, hvs⟩ := h.passes
  obtain ⟨m, hm⟩ := (hvs.loop (.failed hp)).manyFrom p.fueled
  exact ⟨m, fun n hn fuel hf values => ⟨_, hm n hn fuel hf values⟩⟩

theorem Rounds.reachable {start : σ} (h : Rounds p c d) (hc : Reachable S start c) :
    Reachable S start d := by
  induction h with
  | none => exact hc
  | round hr _ _ ih => exact ih (hc.run hr)

/-- The loop over separated values, after its first value. -/
theorem Rounds.sepFrom {sep : Grammar ε S [] β} {v : α} {b : σ} (h : Rounds (.right sep p) b d)
    (hv : p.Returns c ⟨.ok v, b⟩) (hp : (Grammar.right sep p).Returns d ⟨.error e, x⟩) :
    ∃ vs n, p.parser n c = some ⟨.ok v, b⟩ ∧
      Parser.sepFrom (sep.parser n) (p.parser n) n [v] b = some ⟨.ok vs, Cursor.restore x d⟩ := by
  obtain ⟨n, hn⟩ := hv
  obtain ⟨m, hm⟩ := h.manyFrom hp
  obtain ⟨vs, hvs⟩ := hm (max n m) (Nat.le_max_right n m) (max n m) (Nat.le_max_right n m) [v]
  refine ⟨vs, max n m, Grammar.parser_le (Nat.le_max_left n m) hn, ?_⟩
  rw [Parser.sepFrom_eq_manyFrom]
  exact hvs

/-- The steps of a chain, after its first operand. They go round like operands after operators. -/
theorem Rounds.pairFrom {op : Grammar ε S [] β} {v : α} {b : σ} (h : Rounds (.right op p) b d)
    (hv : p.Returns c ⟨.ok v, b⟩) (hp : (Grammar.right op p).Returns d ⟨.error e, x⟩) :
    ∃ steps n, p.parser n c = some ⟨.ok v, b⟩ ∧
      ((op.parser n : Parser σ β).pair (p.parser n)).manyFrom n [] b =
        some ⟨.ok steps, Cursor.restore x d⟩ := by
  obtain ⟨n, hn⟩ := hv
  obtain ⟨m, hm⟩ := h.manyFrom hp
  obtain ⟨vs, hvs⟩ := hm (max n m) (Nat.le_max_right n m) (max n m) (Nat.le_max_right n m) []
  have hmap := Parser.manyFrom_map Prod.snd
    ((op.parser (max n m) : Parser σ β).pair (p.parser (max n m))) (max n m) []
  rw [Parser.pair_map_snd] at hmap
  obtain ⟨steps, hs, -⟩ := Parser.map_eq_ok ((congrFun hmap b).symm.trans hvs)
  exact ⟨steps, max n m, Grammar.parser_le (Nat.le_max_left n m) hn, hs⟩

end

/-! ## Alternatives -/

section

variable {σ ε V α β : Type} [Cursor σ ε] [Element ε] {S : Signature} [Interprets S σ]
  {seen : σ → V} {start c d : σ} {e : ParseError}

theorem Grammar.parser_tryChoice (n : Nat) (label : String) (ps : List (Grammar ε S [] α)) :
    ((tryChoice label (family ps)).parser n : Parser σ α) =
      Parser.tryChoice label (ps.map (Grammar.parser n)) := by
  show Parser.tryChoice label (List.ofFn fun i => (family ps i).parser n) = _
  congr 1
  exact List.ext_getElem (by simp) (by simp [family])

/-- The rest of a loop goes on as the whole of it would, also with more fuel for its parts. -/
theorem Grammar.tillFrom_le {p : Grammar ε S [] α} {stop : Grammar ε S [] β} {n m : Nat}
    (hnm : n ≤ m) {r : Reply σ (List α)} (h : (manyTill p stop).parser n c = some r) :
    (p.parser (m + 1) : Parser σ α).tillFrom (stop.parser (m + 1)) m [] c = some r := by
  have hS := Course.respects (K := Course.anywhere) (S := S) (σ := σ) fun _ _ _ _ => trivial
  have hp := parser_agree hS (Nat.le_succ_of_le hnm) p
  have hs := parser_agree hS (Nat.le_succ_of_le hnm) stop
  exact (Course.agree_iff.1 (hp.tillFrom hs hnm []) c r h).1

/-- After an alternative that fails the others run from the checkpoint. -/
theorem Grammar.tryChoice_returns_iff {p q : Grammar ε S [] α} {qs : List (Grammar ε S [] α)}
    (label : String) (hp : p.Returns c ⟨.error e, d⟩) (r : Reply σ α) :
    (tryChoice label (family (p :: q :: qs))).Returns c r ↔
      (tryChoice label (family (q :: qs))).Returns (Cursor.restore d c) r := by
  constructor
  · rintro ⟨n, hn⟩
    rw [parser_tryChoice, List.map_cons, List.map_cons] at hn
    refine ⟨n, ?_⟩
    rw [parser_tryChoice, List.map_cons]
    cases hpn : (p.parser n : Parser σ α) c with
    | none =>
      rw [Parser.tryChoice_none label hpn] at hn
      cases hn
    | some r' =>
      obtain rfl := Returns.unique ⟨n, hpn⟩ hp
      rwa [Parser.tryChoice_error label hpn] at hn
  · rintro ⟨m, hm⟩
    obtain ⟨n, hn⟩ := hp
    refine ⟨max n m, ?_⟩
    have hm' := parser_le (Nat.le_max_right n m) hm
    rw [parser_tryChoice, List.map_cons] at hm'
    rw [parser_tryChoice, List.map_cons, List.map_cons,
      Parser.tryChoice_error label (parser_le (Nat.le_max_left n m) hn), hm']

/-- After any number of them too. -/
theorem tryChoice_prefix (hb : ∀ {α : Type} {g : Grammar ε S [] α} {c : σ} {r : Reply σ α},
    Reachable S start c → g.Returns c r → Alike S seen (Cursor.restore r.cursor c) c)
    (label : String) (q : Grammar ε S [] α) (qs : List (Grammar ε S [] α)) :
    ∀ {ps : List (Grammar ε S [] α)} {c : σ}, Reachable S start c →
      (∀ p ∈ ps, ∃ e d, p.Returns c ⟨.error e, d⟩) →
      ∃ c', Alike S seen c' c ∧ ∀ r,
        (Grammar.tryChoice label (Grammar.family (ps ++ q :: qs))).Returns c r ↔
          (Grammar.tryChoice label (Grammar.family (q :: qs))).Returns c' r
  | [], c, _, _ => ⟨c, Alike.refl c, fun _ => Iff.rfl⟩
  | p :: ps, c, hc, h => by
    obtain ⟨e, d, hp⟩ := h p List.mem_cons_self
    have hback : Alike S seen (Cursor.restore d c) c := hb hc hp
    obtain ⟨c', hc', hiff⟩ := tryChoice_prefix hb label q qs (.restore (hc.run hp) hc)
      fun p' hp' => by
        obtain ⟨e', hd'⟩ := h p' (List.mem_cons_of_mem p hp')
        exact ⟨e', hback.symm.fails hd'⟩
    refine ⟨c', hc'.trans hback, fun r => Iff.trans ?_ (hiff r)⟩
    cases ps <;> exact Grammar.tryChoice_returns_iff label hp r

end

/-! ## Every combinator -/

section

variable {σ ε V : Type} [Cursor σ ε] [Element ε] {S : Signature} [Interprets S σ] {seen : σ → V}
  {start : σ}

/-- What is to be shown of a kind of cursor: that going back leads to a place like the start of
the run. -/
theorem TraceFree.of_restore (hb : ∀ {α : Type} {g : Grammar ε S [] α} {c : σ} {r : Reply σ α},
    Reachable S start c → g.Returns c r → Alike S seen (Cursor.restore r.cursor c) c) {c : σ}
    (hc : Reachable S start c) : TraceFree S seen c where
  attempt h := ⟨_, h.imp fun _ hn => Parser.attempt_error hn, hb hc h⟩
  opt h := ⟨_, h.imp fun _ hn => Parser.opt_error hn, hb hc h⟩
  orValue {α p e d} v h := by
    refine ⟨_, h.imp fun n hn => ?_, hb hc h⟩
    exact Parser.map_some (f := (Option.getD · v)) (p := (p.parser n : Parser σ α).opt)
      (Parser.opt_error hn)
  lookAhead h := ⟨_, h.imp fun _ hn => Parser.lookAhead_some hn, hb hc h⟩
  many hd hp := by
    obtain ⟨m, hm⟩ := hd.manyFrom hp
    obtain ⟨vs, hvs⟩ := hm m (Nat.le_refl m) m (Nat.le_refl m) []
    exact ⟨vs, _, ⟨m, hvs⟩, hb (hd.reachable hc) hp⟩
  skipMany {α p e d x} hd hp := by
    obtain ⟨m, hm⟩ := hd.manyFrom hp
    obtain ⟨vs, hvs⟩ := hm m (Nat.le_refl m) m (Nat.le_refl m) []
    refine ⟨_, ⟨m, ?_⟩, hb (hd.reachable hc) hp⟩
    show (p.parser m : Parser σ α).skipMany m c = _
    rw [Parser.skipMany_eq_many]
    exact Parser.map_some hvs
  sepByNone h := ⟨_, h.imp fun _ hn => Parser.sepBy_error hn, hb hc h⟩
  sepBy {α β sep p v e b d x} h hd hp := by
    obtain ⟨vs, n, hn, hvs⟩ := hd.sepFrom h hp
    refine ⟨vs, _, ⟨n, ?_⟩, hb (hd.reachable (hc.run h)) hp⟩
    exact (Parser.sepBy_ok hn).trans hvs
  sepBy1 {α β sep p v e b d x} h hd hp := by
    obtain ⟨vs, n, hn, hvs⟩ := hd.sepFrom h hp
    refine ⟨vs, _, ⟨n, ?_⟩, hb (hd.reachable (hc.run h)) hp⟩
    exact (Parser.andThen_ok hn).trans hvs
  chainLeft {α p op v e b d x} h hd hp := by
    obtain ⟨steps, n, hn, hs⟩ := hd.pairFrom h hp
    refine ⟨steps.foldl (fun acc step => step.1 acc step.2) v, _, ⟨n, ?_⟩,
      hb (hd.reachable (hc.run h)) hp⟩
    show (p.parser n : Parser σ α).chainLeft n (op.parser n) c = _
    rw [Parser.chainLeft_eq_many, Parser.andThen_ok hn]
    exact Parser.map_some hs
  chainRight {α p op v e b d x} h hd hp := by
    obtain ⟨steps, n, hn, hs⟩ := hd.pairFrom h hp
    refine ⟨Parser.unwind v steps.reverse, _, ⟨n, ?_⟩, hb (hd.reachable (hc.run h)) hp⟩
    exact (Parser.andThen_ok hn).trans (Parser.map_some hs)
  tryChoice label q qs h := tryChoice_prefix hb label q qs hc h
  manyTill {α β p stop e d} h := by
    refine ⟨Cursor.restore d c, hb hc h, ?_, ?_, ?_⟩
    · rintro f x ⟨m, hm⟩
      obtain ⟨n, hn⟩ := h
      exact ⟨max n m + 1, Parser.tillFrom_error _ [] (Grammar.parser_le (by omega) hn)
        (Grammar.parser_le (by omega) hm)⟩
    · rintro v x ⟨m, hm⟩ ho
      obtain ⟨n, hn⟩ := h
      exact ⟨max n m + 1, Parser.tillFrom_stuck _ [] (Grammar.parser_le (by omega) hn)
        (Grammar.parser_le (by omega) hm) ho⟩
    · rintro v x result y ⟨m, hm⟩ ho ⟨l, hl⟩
      obtain ⟨n, hn⟩ := h
      refine ⟨max n (max m l) + 1, ?_⟩
      refine (Parser.tillFrom_round _ [] (Grammar.parser_le (by omega) hn)
        (Grammar.parser_le (by omega) hm) ho).trans ?_
      rw [Parser.tillFrom_eq_map]
      refine Parser.map_some (f := ([v].reverse ++ ·)) ?_
      exact Grammar.tillFrom_le (by omega) hl

end

/-- From every cursor that can be reached on a text, and on a fused source: what is undone leaves
no trace in the outcome of what follows, its failure and its offset, nor in the line of a text. -/
theorem undone_leaves_no_trace :
    (∀ (text : List Char) (c : TextCursor), Reachable .text (TextCursor.ofText text) c →
      TraceFree .text (fun c : TextCursor => (c.offset, c.line)) c) ∧
    (∀ {s ε : Type} [Source s ε] [Element ε] (source : s), Source.Fused source →
      ∀ c : Buffered s ε, Reachable .plain (Buffered.ofSource source) c →
        TraceFree .plain Buffered.pos c) := by
  constructor
  · exact fun text c hc => .of_restore (fun _ _ => Alike.refl _) hc
  · intro s ε _ _ source hs c hc
    refine .of_restore (fun hc hr => ?_) hc
    exact Buffered.restore_alike (Buffered.holds_of_reachable hs hc) hr

/-- What is read after two elements have been read and put back. -/
theorem any_after_attempt :
    Reachable .text (TextCursor.ofText ['\n', 'a']) (TextCursor.ofText ['\n', 'a']) ∧
      (∃ d x, (.attempt (.right .any (.right .any (.fail "no"))) : TextGrammar [] Unit).Returns
          (TextCursor.ofText ['\n', 'a']) ⟨.error (.failure 2 "no"), d⟩ ∧
        (.any : TextGrammar [] Char).Returns d ⟨.ok '\n', x⟩ ∧ (x.offset, x.line) = (1, 2)) ∧
      Source.Fused (Script.ofList [some (1 : Int), some 2]) ∧
      ∃ d x,
        (.attempt (.right .any (.right .any (.fail "no"))) : Grammar Int .plain [] Unit).Returns
          (Buffered.ofSource (Script.ofList [some (1 : Int), some 2]) : Buffered _ Int)
          ⟨.error (.failure 2 "no"), d⟩ ∧
        (.any : Grammar Int .plain [] Int).Returns d ⟨.ok 1, x⟩ ∧ x.pos = 1 := by
  have hf := (Script.yields [(1 : Int), 2]).fused
  have ht := undone_leaves_no_trace.1 ['\n', 'a'] _ .start
  have hs := undone_leaves_no_trace.2 _ hf _ .start
  refine ⟨.start, ?_, hf, ?_⟩
  · have hp : (.right .any (.right .any (.fail "no")) : TextGrammar [] Unit).Returns
        (TextCursor.ofText ['\n', 'a']) ⟨.error (.failure 2 "no"), ⟨['a', '\n'], [], 2, 2⟩⟩ :=
      ⟨0, rfl⟩
    have hq : (.any : TextGrammar [] Char).Returns (TextCursor.ofText ['\n', 'a'])
        ⟨.ok '\n', ⟨['\n'], ['a'], 1, 2⟩⟩ := ⟨0, rfl⟩
    obtain ⟨d, hd, ha⟩ := ht.attempt hp
    obtain ⟨x, hx, hl⟩ := (ha _ _ _ _).2 ⟨_, hq, rfl⟩
    exact ⟨d, x, hd, hx, hl⟩
  · have hp : (.right .any (.right .any (.fail "no")) : Grammar Int .plain [] Unit).Returns
        (Buffered.ofSource (Script.ofList [some (1 : Int), some 2]) : Buffered _ Int)
        ⟨.error (.failure 2 "no"), ⟨⟨[], 2⟩, #[1, 2], 2⟩⟩ := ⟨0, rfl⟩
    have hq : (.any : Grammar Int .plain [] Int).Returns
        (Buffered.ofSource (Script.ofList [some (1 : Int), some 2]) : Buffered _ Int)
        ⟨.ok 1, ⟨⟨[some 2], 1⟩, #[1], 1⟩⟩ := ⟨0, rfl⟩
    obtain ⟨d, hd, ha⟩ := hs.attempt hp
    obtain ⟨x, hx, hl⟩ := (ha _ _ _ _).2 ⟨_, hq, rfl⟩
    exact ⟨d, x, hd, hx, hl⟩

end Descent
