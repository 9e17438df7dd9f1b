import Descent.Proofs.Alike
import Descent.Proofs.Repetition
import Descent.Proofs.Termination

/-!
# Greedy repetition: `many`

`many p` takes what consecutive runs of `p` give, for as long as they succeed and consume something,
and stops at once where they do not: `Spent p c vs b` says that there is nothing more to take at
`b`.

Main theorem `many_takes_all`: on every cursor `many p` never fails, it comes to `vs` exactly if
they are spent, and it ends unless `p` does not or goes on consuming forever (`Endless`), which it
cannot on a text or a finite source. On a text and on a fused source, `p` run once more where
`many p` has stopped fails again.
-/

namespace Descent

section

variable {σ ε β : Type} [Cursor σ ε] {step : σ → Reply σ β → Prop} {b c d : σ} {us vs : List β}

/-! ## Loops that end -/

/-- Successes without end, each consuming something. -/
def Endless (step : σ → Reply σ β → Prop) (c : σ) : Prop :=
  ∃ cs : Nat → σ, cs 0 = c ∧ ∀ i, ∃ v, step (cs i) ⟨.ok v, cs (i + 1)⟩ ∧
    Cursor.offset (cs (i + 1)) ≠ Cursor.offset (cs i)

theorem Passes.append {e : σ} (h : Passes step c us b) (h' : Passes step b vs e) :
    Passes step c (us ++ vs) e := by
  induction h with
  | none => exact h'
  | pass hv hne _ ih => exact .pass hv hne (ih h')

theorem Loop.begins (h : Loop step c vs d) : ∃ r, step c r := by
  cases h with
  | failed he => exact ⟨_, he⟩
  | idle hv => exact ⟨_, hv⟩
  | round hv => exact ⟨_, hv⟩

/-- The rest of a loop after some of its rounds. -/
theorem Loop.after (hs : Deterministic step) (hp : Passes step c us b)
    (h : Loop step c vs d) : ∃ ws, Loop step b ws d := by
  induction hp generalizing vs with
  | none => exact ⟨vs, h⟩
  | pass hv hne _ ih =>
    cases h with
    | failed he => cases hs _ _ _ hv he
    | idle hv' ho =>
      cases hs _ _ _ hv hv'
      exact absurd ho hne
    | round hv' _ h' =>
      cases hs _ _ _ hv hv'
      exact ih h'

theorem Loop.not_endless (hs : Deterministic step)
    (h : Loop step c vs d) : ¬ Endless step c := by
  induction h with
  | failed he =>
    rintro ⟨cs, rfl, hcs⟩
    obtain ⟨v, hv, -⟩ := hcs 0
    cases hs _ _ _ he hv
  | idle hv ho =>
    rintro ⟨cs, rfl, hcs⟩
    obtain ⟨w, hw, hne⟩ := hcs 0
    cases hs _ _ _ hv hw
    exact hne ho
  | round hv _ _ ih =>
    rintro ⟨cs, rfl, hcs⟩
    obtain ⟨w, hw, -⟩ := hcs 0
    cases hs _ _ _ hv hw
    exact ih ⟨fun i => cs (i + 1), rfl, fun i => hcs (i + 1)⟩

/-- If all the steps that a loop gets to have an outcome, it ends or goes on forever. -/
theorem loop_or_endless (h : ∀ us b, Passes step c us b → ∃ r, step b r) :
    (∃ vs d, Loop step c vs d) ∨ Endless step c := by
  by_cases hl : ∃ vs d, Loop step c vs d
  · exact .inl hl
  -- where no loop ends there is a success that consumes, and no loop ends after it either
  let Stuck (b : σ) : Prop := (∃ us, Passes step c us b) ∧ ¬ ∃ vs d, Loop step b vs d
  have hnext : ∀ b : {b // Stuck b}, ∃ b' : {b // Stuck b}, ∃ v, step b ⟨.ok v, b'⟩ ∧
      Cursor.offset b'.1 ≠ Cursor.offset b.1 := by
    rintro ⟨b, ⟨us, hus⟩, hb⟩
    obtain ⟨⟨e | v, x⟩, hr⟩ := h us b hus
    · exact absurd ⟨_, _, .failed hr⟩ hb
    · by_cases ho : Cursor.offset x = Cursor.offset b
      · exact absurd ⟨_, _, .idle hr ho⟩ hb
      · refine ⟨⟨x, ⟨us ++ [v], hus.append (.pass hr ho .none)⟩, ?_⟩, v, hr, ho⟩
        rintro ⟨vs, d, hx⟩
        exact hb ⟨_, _, .round hr ho hx⟩
  choose next v hv hne using hnext
  refine .inr ⟨fun i => (next^[i] ⟨c, ⟨[], .none⟩, hl⟩).1, rfl, fun i => ?_⟩
  dsimp only
  rw [Function.iterate_succ_apply']
  exact ⟨_, hv _, hne _⟩

theorem Passes.ahead {K : Course σ} (hm : ∀ c r, step c r → K.Ahead c r.cursor)
    (h : Passes step c us b) : K.Ahead c b := by
  induction h with
  | none => exact K.refl _
  | pass hv _ _ ih => exact K.trans (hm _ _ hv) ih

/-- Where only so much is left to read, nothing consumes forever. -/
theorem Supply.not_endless {P : Supply σ} (hm : ∀ c r, step c r → P.Ahead c r.cursor)
    (hc : P.Ready c) : ¬ Endless step c := by
  rintro ⟨cs, rfl, hcs⟩
  have hleft : ∀ i, P.Ready (cs i) ∧ P.left (cs i) + i ≤ P.left (cs 0) := by
    intro i
    induction i with
    | zero => exact ⟨hc, Nat.le_refl _⟩
    | succ i ih =>
      obtain ⟨v, hv, hne⟩ := hcs i
      have ha : P.Ahead (cs i) (cs (i + 1)) := hm _ _ hv
      have hlt := P.left_lt ha ih.1 hne
      exact ⟨P.ready ha ih.1, by omega⟩
  have := (hleft (P.left (cs 0) + 1)).2
  omega

end

/-! ## Repeated grammars -/

section

variable {σ ε V α : Type} [Cursor σ ε] [Element ε] {S : Signature} [Interprets S σ]

/-- Consecutive runs of `p` from `c` give `vs`, all of them consuming but perhaps the last one, and
at `b` there is nothing more to take. -/
inductive Spent (p : Grammar ε S [] α) (c : σ) : List α → σ → Prop
  /-- The next run fails. -/
  | failed {vs b e x} : Passes p.Returns c vs b → p.Returns b ⟨.error e, x⟩ → Spent p c vs b
  /-- The last run has consumed nothing. -/
  | idle {us v a b} : Passes p.Returns c us a → p.Returns a ⟨.ok v, b⟩ →
    Cursor.offset b = Cursor.offset a → Spent p c (us ++ [v]) b

variable (S) (seen : σ → V)

/-- What is promised of `many` at `c`. -/
structure Greedy (c : σ) : Prop where
  /-- It never fails. -/
  succeeds {α : Type} {p : Grammar ε S [] α} {r : Reply σ (List α)} :
    (Grammar.many p).Returns c r → ∃ vs, r.result = .ok vs
  /-- It comes to what is spent, and stops there. -/
  spent {α : Type} (p : Grammar ε S [] α) (vs : List α) (final : V) :
    Outcome seen (.many p) c (.ok vs) final ↔ ∃ b, Spent p c vs b ∧ seen b = final
  /-- It ends, unless one of the runs does not or there are always more of them. -/
  ends {α : Type} (p : Grammar ε S [] α) : (∃ r, (Grammar.many p).Returns c r) ↔
    (∀ us b, Passes p.Returns c us b → ∃ r, p.Returns b r) ∧ ¬ Endless p.Returns c

/-- At the end of what is repeated from `c` the next run fails, unless the last one has consumed
nothing. -/
def StaysSpent (c : σ) : Prop :=
  ∀ (α : Type) (p : Grammar ε S [] α) (vs : List α) (d : σ),
    (Grammar.many p).Returns c ⟨.ok vs, d⟩ → (∃ e x, p.Returns d ⟨.error e, x⟩) ∨
      ∃ us v a, Passes p.Returns c us a ∧ p.Returns a ⟨.ok v, d⟩ ∧
        Cursor.offset d = Cursor.offset a ∧ us ++ [v] = vs

/-- Whatever is repeated from `c` succeeds, if its runs return. -/
def Repeatable (c : σ) : Prop :=
  ∀ (α : Type) (p : Grammar ε S [] α), (∀ us b, Passes p.Returns c us b → ∃ r, p.Returns b r) →
    ∃ vs d, (Grammar.many p).Returns c ⟨.ok vs, d⟩

variable {S seen} {p : Grammar ε S [] α} {start b c : σ} {us vs : List α}

theorem Passes.reachable (h : Passes p.Returns c us b) (hc : Reachable S start c) :
    Reachable S start b := by
  induction h with
  | none => exact hc
  | pass hv _ _ ih => exact ih (hc.run hv)

theorem Greedy.of_restore (hr : ∀ now earlier : σ, seen (Cursor.restore now earlier) = seen earlier)
    (c : σ) : Greedy S seen c where
  succeeds h := by
    obtain ⟨vs, d, -, rfl⟩ := Grammar.many_returns_iff.1 h
    exact ⟨vs, rfl⟩
  spent p vs final := by
    constructor
    · rintro ⟨d, hd, rfl⟩
      obtain ⟨vs, d, hl, he⟩ := Grammar.many_returns_iff.1 hd
      cases he
      obtain ⟨b, e, x, hp, he, rfl⟩ | ⟨us, v, a, hp, hv, ho, rfl⟩ := loop_iff.1 hl
      · exact ⟨b, .failed hp he, (hr x b).symm⟩
      · exact ⟨d, .idle hp hv ho, rfl⟩
    · rintro ⟨b, h, rfl⟩
      cases h with
      | @failed _ _ e x hp he =>
        refine ⟨Cursor.restore x b, Grammar.many_returns_iff.2 ⟨_, _, ?_, rfl⟩, hr x b⟩
        exact loop_iff.2 (.inl ⟨b, e, x, hp, he, rfl⟩)
      | @idle us v a _ hp hv ho =>
        refine ⟨b, Grammar.many_returns_iff.2 ⟨_, _, ?_, rfl⟩, rfl⟩
        exact loop_iff.2 (.inr ⟨us, v, a, hp, hv, ho, rfl⟩)
  ends p := by
    constructor
    · rintro ⟨r, hr⟩
      obtain ⟨vs, d, hl, -⟩ := Grammar.many_returns_iff.1 hr
      refine ⟨fun us b hp => ?_, hl.not_endless p.fueled.deterministic⟩
      obtain ⟨ws, hw⟩ := hl.after p.fueled.deterministic hp
      exact hw.begins
    · rintro ⟨h, hn⟩
      obtain ⟨vs, d, hl⟩ := (loop_or_endless h).resolve_right hn
      exact ⟨_, Grammar.many_returns_iff.2 ⟨vs, d, hl, rfl⟩⟩

theorem Greedy.repeatable (h : Greedy S seen c)
    (hn : ∀ {α : Type} {p : Grammar ε S [] α}, ¬ Endless p.Returns c) : Repeatable S c := by
  intro α p hp
  obtain ⟨⟨result, d⟩, hr⟩ := (h.ends p).2 ⟨hp, hn⟩
  obtain ⟨vs, rfl⟩ := h.succeeds hr
  exact ⟨vs, d, hr⟩

theorem Restores.staysSpent (hb : Restores S seen start) (hc : Reachable S start c) :
    StaysSpent S c := by
  intro α p vs d hd
  obtain ⟨vs, d, hl, he⟩ := Grammar.many_returns_iff.1 hd
  cases he
  obtain ⟨b, e, x, hp, he, rfl⟩ | ⟨us, v, a, hp, hv, ho, hvs⟩ := loop_iff.1 hl
  · obtain ⟨y, hy⟩ := (hb.alike (hp.reachable hc) he).symm.fails ⟨x, he⟩
    exact .inl ⟨e, y, hy⟩
  · exact .inr ⟨us, v, a, hp, hv, ho, hvs⟩

end

/-- On every cursor `many` takes what consecutive runs give, for as long as they succeed and consume
something. On a text and on a finite source it succeeds whatever is repeated, and on a text and on a
fused source what is repeated fails again where it has stopped. -/
theorem many_takes_all :
    (∀ c : TextCursor, Greedy .text (fun c : TextCursor => (c.offset, c.line)) c ∧
      Repeatable .text c ∧ StaysSpent .text c) ∧
    (∀ {s ε : Type} [Source s ε] [Element ε] (c : Buffered s ε),
      Greedy .plain Buffered.pos c ∧ (∀ k, c.Within k → Repeatable .plain c) ∧
      ∀ source : s, Source.Fused source → Reachable .plain (Buffered.ofSource source) c →
        StaysSpent .plain c) := by
  constructor
  · intro c
    have hg : Greedy .text (fun c : TextCursor => (c.offset, c.line)) c :=
      .of_restore (fun _ _ => rfl) c
    refine ⟨hg, hg.repeatable ?_, (TextCursor.restores c).staysSpent .start⟩
    exact Supply.not_endless (P := TextCursor.supply) (fun _ _ hr =>
      hr.ahead (K := TextCursor.course) TextCursor.prim_moves) trivial
  · intro s ε _ _ c
    have hg : Greedy .plain Buffered.pos c := .of_restore (fun _ _ => rfl) c
    refine ⟨hg, fun k hk => hg.repeatable ?_, fun source hs hc => ?_⟩
    · exact Supply.not_endless (P := Buffered.supply k) (fun _ _ hr =>
        hr.ahead (K := Buffered.course) fun p => PEmpty.elim p) hk
    · exact (Buffered.restores hs).staysSpent hc

/-- An optional letter is taken once and then missing once, and that is all. Behind a gap in a
source there may be more elements, but repetition succeeds. -/
theorem letters_spent :
    Outcome (S := .text) (fun c : TextCursor => (c.offset, c.line))
        (.many (.opt (.satisfy (· == 'é')))) (TextCursor.ofText ['é', '\n']) (.ok [some 'é', none])
        (2, 1) ∧
      (Buffered.ofSource (Script.ofList [some (1 : Int), none, some 2]) : Buffered _ Int).Within 2 ∧
      (∃ vs d, (.many .any : Grammar Int .plain [] (List Int)).Returns
        (Buffered.ofSource (Script.ofList [some (1 : Int), none, some 2]) : Buffered _ Int)
        ⟨.ok vs, d⟩) ∧
      Source.Fused (Script.ofList [some (1 : Int), some 2]) ∧
      StaysSpent .plain
        (Buffered.ofSource (Script.ofList [some (1 : Int), some 2]) : Buffered _ Int) := by
  have hw : (Buffered.ofSource (Script.ofList [some (1 : Int), none, some 2]) :
      Buffered _ Int).Within 2 :=
    ⟨Nat.le_refl 0, 2, Script.atMost [some (1 : Int), none, some 2], Nat.le_refl 2⟩
  have hf := (Script.yields [(1 : Int), 2]).fused
  refine ⟨?_, hw, ?_, hf, (many_takes_all.2 _).2.2 _ hf .start⟩
  · refine ((many_takes_all.1 _).1.spent _ _ _).2 ⟨⟨['é'], ['\n'], 2, 1⟩, ?_, rfl⟩
    have hfirst : Passes (Grammar.Returns (.opt (.satisfy (· == 'é')) : TextGrammar [] _))
        (TextCursor.ofText ['é', '\n']) [some 'é'] ⟨['é'], ['\n'], 2, 1⟩ :=
      .pass ⟨0, rfl⟩ (by decide) .none
    exact .idle hfirst ⟨0, rfl⟩ rfl
  · refine (many_takes_all.2 _).2.1 2 hw Int .any fun us b hb => ?_
    have ha := hb.ahead (K := Buffered.course) fun _ _ hr =>
      hr.ahead (K := Buffered.course) fun p => PEmpty.elim p
    obtain ⟨r, hr⟩ := Supply.total_any (P := Buffered.supply 2) b (ha.2 2 hw) (Nat.le_refl _)
    exact ⟨r, 0, hr⟩

end Descent
