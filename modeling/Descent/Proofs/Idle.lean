import Descent.Proofs.Delimited

/-!
# Idle iterations: `many` / `skip_many` / `sep_by` / `many_till`

A loop stops after an iteration that has succeeded without consuming, since every later one would do
the same; and a loop up to an end gives up there, since the end would not be there either. `Lasts`
says so of every loop. Main theorem `idle_lasts`: it is so on a text, and on a source that is fused
from that iteration on. A source that has nothing to give at first and something later breaks it
(`idle_before_gap`).
-/

namespace Descent

section

variable {σ ε V α β : Type} [Cursor σ ε] [Element ε] (S : Signature) [Interprets S σ]
  (seen : σ → V)

/-- Loops that begin at `c` stop after an iteration that consumes nothing, if it begins where
`settled` holds, and they stop for good: at `d`, where they stop, the same comes out again. -/
structure Lasts (settled : σ → Prop) (c : σ) : Prop where
  many {α : Type} {p : Grammar ε S [] α} {us : List α} {v : α} {b d : σ} :
    Passes p.Returns c us b → settled b →
    p.Returns b ⟨.ok v, d⟩ → Cursor.offset d = Cursor.offset b →
    (Grammar.many p).Returns c ⟨.ok (us ++ [v]), d⟩ ∧ StopsAt seen p d (.ok v) d
  skipMany {α : Type} {p : Grammar ε S [] α} {us : List α} {v : α} {b d : σ} :
    Passes p.Returns c us b → settled b →
    p.Returns b ⟨.ok v, d⟩ → Cursor.offset d = Cursor.offset b →
    (Grammar.skipMany p).Returns c ⟨.ok (), d⟩ ∧ StopsAt seen p d (.ok v) d
  /-- An iteration is a separator and the value after it. -/
  sepBy {α β : Type} {sep : Grammar ε S [] β} {p : Grammar ε S [] α} {u v : α} {us : List α}
    {a b d : σ} : p.Returns c ⟨.ok u, a⟩ → Passes (Grammar.right sep p).Returns a us b → settled b →
    (Grammar.right sep p).Returns b ⟨.ok v, d⟩ → Cursor.offset d = Cursor.offset b →
    (Grammar.sepBy sep p).Returns c ⟨.ok (u :: (us ++ [v])), d⟩ ∧
      StopsAt seen (.right sep p) d (.ok v) d
  /-- After the value that has consumed nothing the end fails again, as it did before it. -/
  manyTill {α β : Type} {p : Grammar ε S [] α} {stop : Grammar ε S [] β} {us : List α} {v : α}
    {e : ParseError} {b x d : σ} : Passes (Retries stop.Returns p.Returns) c us b → settled b →
    stop.Returns b ⟨.error e, x⟩ →
    p.Returns (Cursor.restore x b) ⟨.ok v, d⟩ → Cursor.offset d = Cursor.offset b →
    (Grammar.manyTill p stop).Returns c ⟨.error e, d⟩ ∧ ∃ y, stop.Returns d ⟨.error e, y⟩

end

section

variable {σ ε V α β : Type} [Cursor σ ε] [Element ε] {S : Signature} [Interprets S σ]
  {seen : σ → V} {p : Grammar ε S [] α} {us : List α} {u v : α} {a b c d x : σ}

/-! ## Where the loops stop -/

theorem Passes.many_idle (h : Passes p.Returns c us b) (hv : p.Returns b ⟨.ok v, d⟩)
    (ho : Cursor.offset d = Cursor.offset b) :
    (Grammar.many p).Returns c ⟨.ok (us ++ [v]), d⟩ :=
  Grammar.many_returns_iff.2 ⟨_, d, h.loop (.idle hv ho), rfl⟩

theorem Passes.skipMany_idle (h : Passes p.Returns c us b) (hv : p.Returns b ⟨.ok v, d⟩)
    (ho : Cursor.offset d = Cursor.offset b) : (Grammar.skipMany p).Returns c ⟨.ok (), d⟩ := by
  obtain ⟨n, hn⟩ := h.many_idle hv ho
  refine ⟨n, ?_⟩
  show (p.parser n : Parser σ α).skipMany n c = _
  rw [Parser.skipMany_eq_many]
  exact Parser.map_some hn

theorem Passes.sepBy_idle {sep : Grammar ε S [] β} (hu : p.Returns c ⟨.ok u, a⟩)
    (h : Passes (Grammar.right sep p).Returns a us b)
    (hv : (Grammar.right sep p).Returns b ⟨.ok v, d⟩) (ho : Cursor.offset d = Cursor.offset b) :
    (Grammar.sepBy sep p).Returns c ⟨.ok (u :: (us ++ [v])), d⟩ := by
  obtain ⟨n, hn⟩ := hu
  obtain ⟨m, hm⟩ := (h.loop (.idle hv ho)).manyFrom (Grammar.right sep p).fueled
  refine ⟨max n m, ?_⟩
  refine (Parser.sepBy_ok (Grammar.parser_le (Nat.le_max_left n m) hn)).trans ?_
  rw [Parser.sepFrom_eq_manyFrom]
  exact hm _ (Nat.le_max_right n m) _ (Nat.le_max_right n m) [u]

/-! ## Once more -/

/-- A run that has gone nowhere goes nowhere again. -/
theorem Steady.again (hs : Steady S seen b) (hv : p.Returns b ⟨.ok v, d⟩)
    (ho : Cursor.offset d = Cursor.offset b) : StopsAt seen p d (.ok v) d := by
  have hd : Twins S seen b b d := ⟨.start, .run .start hv, (hs.alike .start hv ho).symm⟩
  obtain ⟨y, hy, hx⟩ := hd.run hv
  exact ⟨y, hy, hx.alike.symm⟩

/-- If the end fails, it fails again after a run that has gone nowhere. -/
theorem Steady.fails_again {stop : Grammar ε S [] β} {e : ParseError} (hback : GoesBack σ)
    (hb : Restores S seen b) (hs : Steady S seen b) (he : stop.Returns b ⟨.error e, x⟩)
    (hv : p.Returns (Cursor.restore x b) ⟨.ok v, d⟩) (ho : Cursor.offset d = Cursor.offset b) :
    ∃ y, stop.Returns d ⟨.error e, y⟩ := by
  have hx : Reachable S b (Cursor.restore x b) := .restore (.run .start he) .start
  have hd : Alike S seen d (Cursor.restore x b) := hs.alike hx hv (ho.trans (hback x b).symm)
  exact (hd.trans (hb.alike .start he)).symm.fails ⟨x, he⟩

theorem lasts_of_settled {settled : σ → Prop} (hback : GoesBack σ)
    (h : ∀ b, settled b → Restores S seen b ∧ Steady S seen b) (c : σ) :
    Lasts S seen settled c where
  many hp hb hv ho := ⟨hp.many_idle hv ho, (h _ hb).2.again hv ho⟩
  skipMany hp hb hv ho := ⟨hp.skipMany_idle hv ho, (h _ hb).2.again hv ho⟩
  sepBy hu hp hb hv ho := ⟨hp.sepBy_idle hu hv ho, (h _ hb).2.again hv ho⟩
  manyTill hp hb he hv ho :=
    ⟨(Grammar.manyTill_returns_iff hback).2 ⟨_, _, hp, .idle he hv ho⟩,
      (h _ hb).2.fails_again hback (h _ hb).1 he hv ho⟩

end

/-- Wherever a loop begins, when it stops after an iteration that consumes nothing it stops for
good: on every text, and on every source that is fused when that iteration begins. -/
theorem idle_lasts {s ε : Type} [Source s ε] [Element ε] (t : TextCursor) (c : Buffered s ε) :
    Lasts .text id (fun _ => True) t ∧
      Lasts .plain Buffered.pos (fun b => Source.Fused b.source) c :=
  ⟨lasts_of_settled (fun _ _ => rfl) (fun b _ => ⟨b.restores_self, b.steady_self⟩) t,
    lasts_of_settled (fun _ _ => rfl)
      (fun _ hb => ⟨Buffered.restores_self hb, Buffered.steady_self hb⟩) c⟩

/-- An optional letter that is missing once is missing from then on. On the source the end fails
again after a value that has consumed nothing. -/
theorem missing_letter_lasts :
    (∃ d, (.many (.opt (.satisfy (· == 'é'))) : TextGrammar [] _).Returns
        (TextCursor.ofText ['é', '\n']) ⟨.ok [some 'é', none], d⟩ ∧
      StopsAt id (.opt (.satisfy (· == 'é')) : TextGrammar [] _) d (.ok none) d) ∧
    Source.Fused (Script.ofList [some (1 : Int), some 2]) ∧
    ∃ d, (.manyTill (.opt (.satisfy (· == 2))) (.right .any (.satisfy (· == 3))) :
          Grammar Int .plain [] _).Returns
        (Buffered.ofSource (Script.ofList [some (1 : Int), some 2]) : Buffered _ Int)
        ⟨.error (.predicate 1 "2" "element does not match predicate"), d⟩ ∧
      ∃ y, (.right .any (.satisfy (· == 3)) : Grammar Int .plain [] Int).Returns d
        ⟨.error (.predicate 1 "2" "element does not match predicate"), y⟩ := by
  have hf := (Script.yields [(1 : Int), 2]).fused
  obtain ⟨htext, hsource⟩ := idle_lasts (TextCursor.ofText ['é', '\n'])
    (Buffered.ofSource (Script.ofList [some (1 : Int), some 2]))
  have hround : Passes (Grammar.Returns (.opt (.satisfy (· == 'é')) : TextGrammar [] _))
      (TextCursor.ofText ['é', '\n']) [some 'é'] ⟨['é'], ['\n'], 2, 1⟩ :=
    .pass ⟨0, rfl⟩ (by decide) .none
  exact ⟨⟨_, htext.many hround trivial ⟨0, rfl⟩ rfl⟩, hf,
    _, hsource.manyTill .none hf ⟨0, rfl⟩ ⟨0, rfl⟩ rfl⟩

/-- A source that has nothing to give at first, and an element when it is asked again. -/
def gapped : Buffered (Script Int) Int := .ofSource (.ofList [none, some 1])

/-- Behind a gap there is more. The loop has stopped after an iteration that has read nothing, and
the next one would read an element; a loop up to an end has given up, and the end is there. -/
theorem idle_before_gap :
    (∃ d, (.many (.opt .any) : Grammar Int .plain [] _).Returns gapped ⟨.ok [none], d⟩ ∧
      d.pos = gapped.pos ∧ ∃ y, (.opt .any : Grammar Int .plain [] _).Returns d ⟨.ok (some 1), y⟩ ∧
        y.pos ≠ d.pos) ∧
    (∃ d, (.manyTill (.opt (.satisfy (· == 2))) (.satisfy (· == 1)) :
        Grammar Int .plain [] _).Returns gapped ⟨.error (.endOfInput 0), d⟩ ∧
      d.pos = gapped.pos ∧
      ∃ y, (.satisfy (· == 1) : Grammar Int .plain [] _).Returns d ⟨.ok 1, y⟩) ∧
    ¬ Lasts .plain Buffered.pos (fun _ => True) gapped := by
  have hmany : (.opt .any : Grammar Int .plain [] _).Returns gapped
      ⟨.ok none, ⟨⟨[some 1], 1⟩, #[], 0⟩⟩ := ⟨0, rfl⟩
  have hmore : (.opt .any : Grammar Int .plain [] _).Returns
      (⟨⟨[some 1], 1⟩, #[], 0⟩ : Buffered (Script Int) Int)
      ⟨.ok (some 1), ⟨⟨[], 2⟩, #[1], 1⟩⟩ := ⟨0, rfl⟩
  refine ⟨⟨_, ⟨1, rfl⟩, rfl, _, hmore, by decide⟩, ⟨_, ⟨1, rfl⟩, rfl, _, ⟨0, rfl⟩⟩, fun h => ?_⟩
  obtain ⟨-, y, hy, -⟩ := h.many .none trivial hmany rfl
  cases hmore.unique hy

end Descent
