import Descent.Proofs.Repetition
import Descent.Proofs.Termination
import Descent.Proofs.Undone

/-!
# Two folds over one chain: `chain_l1` / `chain_r1`

`chainLeft` folds its steps as it reads them, and `chainRight` puts them by and folds them when
there are no more. Both read the same (`Operands`): they fail as the first operand does, and
otherwise end at one place with two folds of one sequence.

Main theorem `chains_agree`. The loop of `chainRight` also comes to the same as a definition in
terms of itself, `Parser.chainDown`, if an operator and an operand always consume something.
Otherwise the loop would still end, and the definition would not.
-/

namespace Descent

namespace Parser

variable {σ ε α : Type}

/-- Steps folded from the right: each operator between the operand before it and all that comes
after it. -/
def foldSteps : α → List ((α → α → α) × α) → α
  | first, [] => first
  | first, (f, x) :: steps => f first (foldSteps x steps)

/-- What is folded already is the last operand of the steps that are left. -/
theorem unwindFrom_foldSteps (first : α) (f : α → α → α) (x : α) (folded : List ((α → α → α) × α)) :
    ∀ steps, unwindFrom first f (foldSteps x folded) steps =
      foldSteps first (steps.reverse ++ (f, x) :: folded)
  | [] => rfl
  | (g, y) :: steps => by
    rw [List.reverse_cons, List.append_assoc]
    exact unwindFrom_foldSteps first g y ((f, x) :: folded) steps

theorem unwind_eq_foldSteps (first : α) :
    ∀ steps : List ((α → α → α) × α), unwind first steps = foldSteps first steps.reverse
  | [] => rfl
  | (f, x) :: steps => by
    rw [List.reverse_cons]
    exact unwindFrom_foldSteps first f x [] steps

/-- A chain folded from the right, in terms of itself: an operand, and then from a checkpoint an
operator and a chain. If one of these fails, the operand alone. -/
def chainDown [Cursor σ ε] (p : Parser σ α) (op : Parser σ (α → α → α)) (fuel : Nat) : Parser σ α :=
  fixpoint (fun self => p.andThen fun first =>
    (op.andThen fun f => self.map (f first)).opt.map (·.getD first)) fuel

end Parser

section

variable {σ ε α : Type} [Cursor σ ε] [Element ε] {S : Signature} [Interprets S σ]

/-- An operator and then an operand, or the failure of one of them. -/
inductive ChainStep (p : Grammar ε S [] α) (op : Grammar ε S [] (α → α → α)) (c : σ) :
    Reply σ ((α → α → α) × α) → Prop
  | operator {e d} : op.Returns c ⟨.error e, d⟩ → ChainStep p op c ⟨.error e, d⟩
  | operand {f b e d} : op.Returns c ⟨.ok f, b⟩ → p.Returns b ⟨.error e, d⟩ →
    ChainStep p op c ⟨.error e, d⟩
  | both {f b x d} : op.Returns c ⟨.ok f, b⟩ → p.Returns b ⟨.ok x, d⟩ →
    ChainStep p op c ⟨.ok (f, x), d⟩

/-- The operand `first`, and then operators with an operand after each, as long as there are any. -/
def Operands (p : Grammar ε S [] α) (op : Grammar ε S [] (α → α → α)) (c : σ) (first : α)
    (steps : List ((α → α → α) × α)) (d : σ) : Prop :=
  ∃ b, p.Returns c ⟨.ok first, b⟩ ∧ Loop (ChainStep p op) b steps d

/-- What a chain comes to: the failure of the first operand, or a fold of all there is to read. -/
inductive Folded (fold : α → List ((α → α → α) × α) → α) (p : Grammar ε S [] α)
    (op : Grammar ε S [] (α → α → α)) (c : σ) : Reply σ α → Prop
  | failed {e d} : p.Returns c ⟨.error e, d⟩ → Folded fold p op c ⟨.error e, d⟩
  | folded {x steps d} : Operands p op c x steps d → Folded fold p op c ⟨.ok (fold x steps), d⟩

/-- Wherever one can get to from `c`, an operator and an operand consume something. -/
structure StepsConsume (p : Grammar ε S [] α) (op : Grammar ε S [] (α → α → α)) (c : σ) : Prop where
  apart {b m d : σ} {f : α → α → α} {x : α} : Reachable S c b → op.Returns b ⟨.ok f, m⟩ →
    p.Returns m ⟨.ok x, d⟩ → Cursor.offset d ≠ Cursor.offset b

/-- What the definition in terms of itself comes to. -/
def Descends (p : Grammar ε S [] α) (op : Grammar ε S [] (α → α → α)) (c : σ) (r : Reply σ α) :
    Prop := ∃ n, (p.parser n : Parser σ α).chainDown (op.parser n) n c = some r

/-- What is promised of the chains at `c`. -/
structure Chains (p : Grammar ε S [] α) (op : Grammar ε S [] (α → α → α)) (c : σ) : Prop where
  /-- They fail as the first operand does, and only then. -/
  fails (e : ParseError) (d : σ) :
    ((Grammar.chainLeft p op).Returns c ⟨.error e, d⟩ ↔ p.Returns c ⟨.error e, d⟩) ∧
      ((Grammar.chainRight p op).Returns c ⟨.error e, d⟩ ↔ p.Returns c ⟨.error e, d⟩)
  /-- They succeed together, and stop at the same place. -/
  together (d : σ) : (∃ v, (Grammar.chainLeft p op).Returns c ⟨.ok v, d⟩) ↔
    ∃ v, (Grammar.chainRight p op).Returns c ⟨.ok v, d⟩
  /-- There is one sequence of operands with operators between. -/
  one {x y : α} {steps steps' : List ((α → α → α) × α)} {d d' : σ} : Operands p op c x steps d →
    Operands p op c y steps' d' → x = y ∧ steps = steps' ∧ d = d'
  left (v : α) (d : σ) : (Grammar.chainLeft p op).Returns c ⟨.ok v, d⟩ ↔
    ∃ x steps, Operands p op c x steps d ∧
      steps.foldl (fun acc step => step.1 acc step.2) x = v
  right (v : α) (d : σ) : (Grammar.chainRight p op).Returns c ⟨.ok v, d⟩ ↔
    ∃ x steps, Operands p op c x steps d ∧ Parser.foldSteps x steps = v
  /-- The loop comes to what the definition in terms of itself does. -/
  down : StepsConsume p op c → ∀ r, (Grammar.chainRight p op).Returns c r ↔ Descends p op c r

variable {p : Grammar ε S [] α} {op : Grammar ε S [] (α → α → α)} {start b c d d' m : σ} {x y v : α}
  {f : α → α → α} {steps steps' : List ((α → α → α) × α)} {e : ParseError} {r : Reply σ α}
  {fold : α → List ((α → α → α) × α) → α}

theorem folded_error_iff : Folded fold p op c ⟨.error e, d⟩ ↔ p.Returns c ⟨.error e, d⟩ := by
  constructor
  · rintro (hp | _)
    exact hp
  · exact .failed

theorem folded_ok_iff : Folded fold p op c ⟨.ok v, d⟩ ↔
    ∃ x steps, Operands p op c x steps d ∧ fold x steps = v := by
  constructor
  · rintro (_ | h)
    exact ⟨_, _, h, rfl⟩
  · rintro ⟨x, steps, h, rfl⟩
    exact .folded h

/-! ## Operands -/

theorem comes_pair :
    Comes (fun n => (op.parser n : Parser σ _).pair (p.parser n)) = ChainStep p op := by
  funext c r
  refine propext ⟨?_, ?_⟩
  · rintro ⟨n, h⟩
    obtain ⟨e, d, hop, rfl⟩ | ⟨f, b, hop, h⟩ := Parser.andThen_eq_some_iff.1 h
    · exact .operator ⟨n, hop⟩
    · obtain ⟨⟨e | x, d⟩, hp, rfl⟩ := Parser.map_eq_some_iff.1 h
      · exact .operand ⟨n, hop⟩ ⟨n, hp⟩
      · exact .both ⟨n, hop⟩ ⟨n, hp⟩
  · intro h
    have hpair : ∀ {f b r}, op.Returns c ⟨.ok f, b⟩ → p.Returns b r →
        Comes (fun n => (op.parser n : Parser σ _).pair (p.parser n)) c
          ⟨r.result.map (f, ·), r.cursor⟩ := by
      rintro f b r ⟨n, hop⟩ ⟨m, hp⟩
      refine ⟨max n m, ?_⟩
      refine (Parser.andThen_ok (Grammar.parser_le (Nat.le_max_left n m) hop)).trans ?_
      exact Parser.map_some (Grammar.parser_le (Nat.le_max_right n m) hp)
    cases h with
    | operator hop => exact hop.imp fun n hn => Parser.andThen_eq_some_iff.2 (.inl ⟨_, _, hn, rfl⟩)
    | operand hop hp => exact hpair hop hp
    | both hop hp => exact hpair hop hp

theorem Operands.unique (h : Operands p op c x steps d) (h' : Operands p op c y steps' d') :
    x = y ∧ steps = steps' ∧ d = d' := by
  obtain ⟨b, hx, hl⟩ := h
  obtain ⟨b', hy, hl'⟩ := h'
  cases hx.unique hy
  rw [← comes_pair] at hl hl'
  exact ⟨rfl, hl.unique (op.fueled.pair p.fueled).deterministic hl'⟩

/-! ## Loops -/

/-- Whatever reads an operand, then goes round like `many` and folds, is a chain. -/
theorem comes_folded {P : Nat → Parser σ α} (hP : ∀ n, P n = (p.parser n : Parser σ α).andThen
      fun first => (((op.parser n).pair (p.parser n)).many n).map (fold first)) :
    Comes P c r ↔ Folded fold p op c r := by
  constructor
  · rintro ⟨n, h⟩
    rw [hP] at h
    obtain ⟨e, d, hp, rfl⟩ | ⟨x, b, hp, h⟩ := Parser.andThen_eq_some_iff.1 h
    · exact .failed ⟨n, hp⟩
    · obtain ⟨r', hr', rfl⟩ := Parser.map_eq_some_iff.1 h
      obtain ⟨steps, d, hl, rfl⟩ :=
        loop_of_manyFrom (P := fun n => (op.parser n).pair (p.parser n)) hr'
      rw [comes_pair] at hl
      exact .folded ⟨b, ⟨n, hp⟩, hl⟩
  · rintro (⟨n, hp⟩ | ⟨b, ⟨n, hp⟩, hl⟩)
    · exact ⟨n, (congrFun (hP n) c).trans (Parser.andThen_eq_some_iff.2 (.inl ⟨_, _, hp, rfl⟩))⟩
    · rw [← comes_pair] at hl
      obtain ⟨m, hm⟩ := hl.manyFrom (op.fueled.pair p.fueled)
      have hle := Nat.le_max_right n m
      refine ⟨max n m, (congrFun (hP _) c).trans ?_⟩
      refine (Parser.andThen_ok (Grammar.parser_le (Nat.le_max_left n m) hp)).trans ?_
      exact Parser.map_some (hm _ hle _ hle [])

theorem Grammar.chainLeft_returns_iff : (chainLeft p op).Returns c r ↔
    Folded (fun x steps => steps.foldl (fun acc step => step.1 acc step.2) x) p op c r :=
  comes_folded fun n => Parser.chainLeft_eq_many n (p.parser n) (op.parser n)

theorem Grammar.chainRight_returns_iff :
    (chainRight p op).Returns c r ↔ Folded Parser.foldSteps p op c r := by
  refine comes_folded fun n => ?_
  show (p.parser n : Parser σ α).andThen _ = _
  simp only [Parser.unwind_eq_foldSteps, List.reverse_reverse]
  rfl

/-! ## The definition in terms of itself -/

/-- More fuel, for the operands and for the depth, does not change a run that has ended. -/
theorem chainDown_le {n m k l : Nat} (hnm : n ≤ m) (hkl : k ≤ l)
    (h : (p.parser n : Parser σ α).chainDown (op.parser n) k c = some r) :
    (p.parser m : Parser σ α).chainDown (op.parser m) l c = some r := by
  have hS := Course.respects (K := Course.anywhere) (S := S) (σ := σ) fun _ _ _ _ => trivial
  have hp := Grammar.parser_agree hS hnm p
  have ho := Grammar.parser_agree hS hnm op
  have hdown : Course.anywhere.lockstep.Agree ((p.parser n : Parser σ α).chainDown (op.parser n) k)
      ((p.parser m : Parser σ α).chainDown (op.parser m) l) :=
    .fixpoint (fun hself => hp.andThen fun _ => (ho.andThen fun _ => hself.map _).opt.map _) hkl
  exact (Course.agree_iff.1 hdown c r h).1

/-- By induction on the depth. A step of the definition is one of the loop, because it consumes. -/
theorem folded_of_chainDown (h : StepsConsume p op start) {n : Nat} :
    ∀ {k : Nat} {c : σ} {r : Reply σ α}, Reachable S start c →
      (p.parser n : Parser σ α).chainDown (op.parser n) k c = some r →
      Folded Parser.foldSteps p op c r
  | k + 1, c, r, hc, hr => by
    obtain ⟨e, d, hp, rfl⟩ | ⟨x, b, hp, hr⟩ := Parser.andThen_eq_some_iff.1 hr
    · exact .failed ⟨n, hp⟩
    have hx : p.Returns c ⟨.ok x, b⟩ := ⟨n, hp⟩
    obtain ⟨e, d, hs, rfl⟩ | ⟨v, d, hs, rfl⟩ := Parser.orValue_eq_some_iff.1 hr
    · have hstep : ChainStep p op b ⟨.error e, d⟩ := by
        obtain ⟨e, d, hop, he⟩ | ⟨f, m, hop, hm⟩ := Parser.andThen_eq_some_iff.1 hs
        · cases he
          exact .operator ⟨n, hop⟩
        · obtain ⟨⟨e | v, d⟩, hd, he⟩ := Parser.map_eq_some_iff.1 hm
          · cases he
            cases folded_of_chainDown h ((hc.run hx).run ⟨n, hop⟩) hd with
            | failed hy => exact .operand ⟨n, hop⟩ hy
          · cases he
      exact .folded ⟨b, hx, .failed hstep⟩
    · obtain ⟨e, d, hop, he⟩ | ⟨f, m, hop, hm⟩ := Parser.andThen_eq_some_iff.1 hs
      · cases he
      obtain ⟨⟨e | w, d⟩, hd, he⟩ := Parser.map_eq_some_iff.1 hm
      · cases he
      cases he
      have hf : op.Returns b ⟨.ok f, m⟩ := ⟨n, hop⟩
      cases folded_of_chainDown h ((hc.run hx).run hf) hd with
      | folded hops =>
        obtain ⟨b', hy, hl⟩ := hops
        exact .folded ⟨b, hx, .round (.both hf hy) (h.apart (hc.run hx) hf hy) hl⟩

theorem Descends.failed (hp : p.Returns c ⟨.error e, d⟩) : Descends p op c ⟨.error e, d⟩ := by
  obtain ⟨n, hn⟩ := hp
  refine ⟨n + 1, Parser.andThen_eq_some_iff.2 (.inl ⟨e, d, ?_, rfl⟩)⟩
  exact Grammar.parser_le (Nat.le_succ n) hn

/-- The definition stops at a step that fails. -/
theorem Descends.stop (hx : p.Returns c ⟨.ok x, b⟩) (hs : ChainStep p op b ⟨.error e, d⟩) :
    Descends p op c ⟨.ok x, Cursor.restore d b⟩ := by
  obtain ⟨n, hn⟩ := hx
  cases hs with
  | operator hop =>
    obtain ⟨k, hk⟩ := hop
    refine ⟨max n k + 1, Parser.andThen_eq_some_iff.2 (.inr ⟨x, b, ?_, ?_⟩)⟩
    · exact Grammar.parser_le (by omega) hn
    · refine Parser.orValue_eq_some_iff.2 (.inl ⟨e, d, ?_, rfl⟩)
      exact Parser.andThen_eq_some_iff.2 (.inl ⟨e, d, Grammar.parser_le (by omega) hk, rfl⟩)
  | @operand f m _ _ hop hy =>
    obtain ⟨k, hk⟩ := hop
    obtain ⟨j, hj⟩ : Descends p op m ⟨.error e, d⟩ := .failed hy
    refine ⟨max n (max k j) + 1, Parser.andThen_eq_some_iff.2 (.inr ⟨x, b, ?_, ?_⟩)⟩
    · exact Grammar.parser_le (by omega) hn
    · refine Parser.orValue_eq_some_iff.2 (.inl ⟨e, d, ?_, rfl⟩)
      refine (Parser.andThen_ok (Grammar.parser_le (by omega) hk)).trans ?_
      exact Parser.map_some (chainDown_le (by omega) (by omega) hj)

/-- After a step it goes on from the operand of that step. -/
theorem Descends.step (hx : p.Returns c ⟨.ok x, b⟩) (hop : op.Returns b ⟨.ok f, m⟩)
    (hd : Descends p op m ⟨.ok v, d⟩) : Descends p op c ⟨.ok (f x v), d⟩ := by
  obtain ⟨n, hn⟩ := hx
  obtain ⟨k, hk⟩ := hop
  obtain ⟨j, hj⟩ := hd
  refine ⟨max n (max k j) + 1, Parser.andThen_eq_some_iff.2 (.inr ⟨x, b, ?_, ?_⟩)⟩
  · exact Grammar.parser_le (by omega) hn
  · refine Parser.orValue_eq_some_iff.2 (.inr ⟨f x v, d, ?_, rfl⟩)
    refine (Parser.andThen_ok (Grammar.parser_le (by omega) hk)).trans ?_
    exact Parser.map_some (chainDown_le (by omega) (by omega) hj)

/-- By induction on the loop, whose rounds all consume. -/
theorem Descends.of_loop (h : StepsConsume p op start) (hl : Loop (ChainStep p op) b steps d) :
    ∀ {c : σ} {x : α}, Reachable S start c → p.Returns c ⟨.ok x, b⟩ →
      Descends p op c ⟨.ok (Parser.foldSteps x steps), d⟩ := by
  induction hl with
  | failed hs =>
    intro c x _ hx
    exact .stop hx hs
  | idle hs ho =>
    intro c x hc hx
    cases hs with
    | both hop hy => exact absurd ho (h.apart (hc.run hx) hop hy)
  | round hs _ _ ih =>
    intro c x hc hx
    cases hs with
    | both hop hy => exact .step hx hop (ih ((hc.run hx).run hop) hy)

/-- The two chains read the same operands and operators, fail as the first operand does, and differ
in the order of folding alone. Folding from the right is the recursion, where steps consume. -/
theorem chains_agree (p : Grammar ε S [] α) (op : Grammar ε S [] (α → α → α)) (c : σ) :
    Chains p op c where
  fails e d := by
    rw [Grammar.chainLeft_returns_iff, Grammar.chainRight_returns_iff]
    exact ⟨folded_error_iff, folded_error_iff⟩
  together d := by
    simp only [Grammar.chainLeft_returns_iff, Grammar.chainRight_returns_iff, folded_ok_iff]
    constructor <;> rintro ⟨_, x, steps, h, _⟩ <;> exact ⟨_, x, steps, h, rfl⟩
  one h h' := h.unique h'
  left v d := Grammar.chainLeft_returns_iff.trans folded_ok_iff
  right v d := Grammar.chainRight_returns_iff.trans folded_ok_iff
  down h r := by
    rw [Grammar.chainRight_returns_iff]
    constructor
    · rintro (hp | ⟨b, hx, hl⟩)
      · exact .failed hp
      · exact .of_loop h hl .start hx
    · rintro ⟨n, hn⟩
      exact folded_of_chainDown h .start hn

end

/-! ## Differences -/

/-- Runs on a text do not go back. -/
theorem TextCursor.offset_le_of_returns {α : Type} {g : TextGrammar [] α} {c d : TextCursor}
    {result : Except ParseError α} (h : g.Returns c ⟨result, d⟩) : c.offset ≤ d.offset := by
  obtain ⟨k, rfl⟩ : course.Ahead c d := h.ahead prim_moves
  exact offset_le_advance c k

/-- On a text it is enough that operators consume. -/
theorem TextCursor.stepsConsume {α : Type} {p : TextGrammar [] α} {op : TextGrammar [] (α → α → α)}
    (hop : ∀ n, (op.parser n : Parser TextCursor _).Consumes) (c : TextCursor) :
    StepsConsume p op c where
  apart {b m d f x} _ hf hx := by
    obtain ⟨n, hn⟩ := hf
    have hne : m.offset ≠ b.offset := hop n b f m hn
    have hbm : b.offset ≤ m.offset := offset_le_of_returns ⟨n, hn⟩
    have hmd : m.offset ≤ d.offset := offset_le_of_returns hx
    show d.offset ≠ b.offset
    omega

def digit : TextGrammar [] Int := .map (fun x => x.toNat - 48) (.satisfy Char.isDigit)

def minus : TextGrammar [] (Int → Int → Int) := .constant (.satisfy (· == '-')) fun a b => a - b

/-- With a sign at the end that has no digit after it. -/
theorem differences_agree :
    StepsConsume digit minus (TextCursor.ofText ['5', '-', '3', '-', '1', '-']) ∧
      ∃ d : TextCursor, d.offset = 5 ∧
        (Grammar.chainLeft digit minus).Returns (TextCursor.ofText ['5', '-', '3', '-', '1', '-'])
          ⟨.ok 1, d⟩ ∧
        Descends digit minus (TextCursor.ofText ['5', '-', '3', '-', '1', '-']) ⟨.ok 3, d⟩ := by
  have hminus : ∀ n, (minus.parser n : Parser TextCursor _).Consumes := by
    intro n c f d h
    obtain ⟨x, hx, -⟩ := Parser.map_eq_ok h
    refine Grammar.item_advances (S := .text) (fun c d x h => ?_) .nil _ _ n c x d hx
    have hd : d.offset = c.offset + x.utf8Size := TextCursor.offset_of_read (Option.some.inj h)
    exact Nat.ne_of_gt (Nat.lt_of_lt_of_eq (Nat.lt_add_of_pos_right x.utf8Size_pos) hd.symm)
  have hs := TextCursor.stepsConsume (p := digit) hminus
    (TextCursor.ofText ['5', '-', '3', '-', '1', '-'])
  have hc := chains_agree digit minus (TextCursor.ofText ['5', '-', '3', '-', '1', '-'])
  have hops : Operands digit minus (TextCursor.ofText ['5', '-', '3', '-', '1', '-']) 5
      [(fun a b => a - b, 3), (fun a b => a - b, 1)]
      ⟨['1', '-', '3', '-', '5'], ['-'], 5, 1⟩ := by
    refine ⟨_, ⟨0, rfl⟩, .round (.both ⟨0, rfl⟩ ⟨0, rfl⟩) (by decide) ?_⟩
    refine .round (.both ⟨0, rfl⟩ ⟨0, rfl⟩) (by decide) ?_
    exact .failed (x := ⟨['-', '1', '-', '3', '-', '5'], [], 6, 1⟩) (.operand ⟨0, rfl⟩ ⟨0, rfl⟩)
  refine ⟨hs, _, rfl, (hc.left _ _).2 ⟨_, _, hops, rfl⟩, ?_⟩
  exact (hc.down hs _).1 ((hc.right _ _).2 ⟨_, _, hops, rfl⟩)

end Descent
