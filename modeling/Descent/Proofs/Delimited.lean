import Descent.Proofs.Commitment
import Descent.Proofs.Greedy
import Descent.Proofs.Undone

/-!
# Repetition up to an end: `many_till`

`manyTill p stop` tries `stop`, goes back to a checkpoint when it fails, and runs `p` from there.
`Delimited` states what this should amount to without checkpoints: at every place `stop` and `p` are
both run from that place, and the values are those of `p` up to the first place where `stop`
succeeds.

Main theorem `manyTill_exact`: on a text and on a fused source `manyTill p stop` comes to exactly
what is delimited.
-/

namespace Descent

section

variable {σ ε α β : Type} [Cursor σ ε]

/-- A round from `c` in which the end fails and is undone. -/
def Retries (halt : σ → Reply σ β → Prop) (step : σ → Reply σ α → Prop) (c : σ)
    (r : Reply σ α) : Prop :=
  ∃ e x, halt c ⟨.error e, x⟩ ∧ step (Cursor.restore x c) r

/-- How the rounds are over at `b`, after the values `vs`. -/
inductive Exit (halt : σ → Reply σ β → Prop) (step : σ → Reply σ α → Prop) (b : σ)
    (vs : List α) : Reply σ (List α) → Prop
  | ended {w d} : halt b ⟨.ok w, d⟩ → Exit halt step b vs ⟨.ok vs, d⟩
  | failed {e d} : Retries halt step b ⟨.error e, d⟩ → Exit halt step b vs ⟨.error e, d⟩
  | idle {e x v d} : halt b ⟨.error e, x⟩ → step (Cursor.restore x b) ⟨.ok v, d⟩ →
    Cursor.offset d = Cursor.offset b → Exit halt step b vs ⟨.error e, d⟩

/-- What is to be shown of a kind of cursor: that going back means going back to the offset of the
checkpoint. -/
def GoesBack (σ : Type) {ε : Type} [Cursor σ ε] : Prop :=
  ∀ now earlier : σ, Cursor.offset (Cursor.restore now earlier) = Cursor.offset earlier

/-! ## Fuel -/

variable {P : Nat → Parser σ α} {Q : Nat → Parser σ β} {b c : σ} {vs : List α}
  {r : Reply σ (List α)}

theorem Parser.tillFrom_ok {p : Parser σ α} {stop : Parser σ β} {w : β} {d : σ} (n : Nat)
    (values : List α) (h : stop c = some ⟨.ok w, d⟩) :
    p.tillFrom stop (n + 1) values c = some ⟨.ok values.reverse, d⟩ := by
  rw [Parser.tillFrom_succ, h]

theorem Exit.tillFrom (hP : Fueled P) (hQ : Fueled Q) (hback : GoesBack σ) {values : List α}
    (h : Exit (Comes Q) (Comes P) b values.reverse r) :
    ∃ m, ∀ n, m ≤ n → ∀ fuel, m ≤ fuel → (P n).tillFrom (Q n) fuel values b = some r := by
  cases h with
  | ended hw =>
    obtain ⟨m, hm⟩ := hw
    refine ⟨m + 1, fun n hn fuel hf => ?_⟩
    obtain ⟨fuel, rfl⟩ := Nat.exists_eq_add_of_le' (Nat.le_trans (Nat.le_add_left 1 m) hf)
    exact Parser.tillFrom_ok fuel values (hQ.le (by omega) hm)
  | failed hr =>
    obtain ⟨f, x, ⟨m, hm⟩, ⟨k, hk⟩⟩ := hr
    refine ⟨max m k + 1, fun n hn fuel hf => ?_⟩
    obtain ⟨fuel, rfl⟩ := Nat.exists_eq_add_of_le' (Nat.le_trans (Nat.le_add_left 1 _) hf)
    exact Parser.tillFrom_error fuel values (hQ.le (by omega) hm) (hP.le (by omega) hk)
  | idle he hv ho =>
    obtain ⟨m, hm⟩ := he
    obtain ⟨k, hk⟩ := hv
    refine ⟨max m k + 1, fun n hn fuel hf => ?_⟩
    obtain ⟨fuel, rfl⟩ := Nat.exists_eq_add_of_le' (Nat.le_trans (Nat.le_add_left 1 _) hf)
    refine Parser.tillFrom_stuck fuel values (hQ.le (by omega) hm) (hP.le (by omega) hk) ?_
    rw [ho, hback]

/-- The loop goes through the rounds if there is fuel for them: by induction on them. -/
theorem Passes.tillFrom (hP : Fueled P) (hQ : Fueled Q) (hback : GoesBack σ)
    (h : Passes (Retries (Comes Q) (Comes P)) c vs b) : ∀ values : List α,
    Exit (Comes Q) (Comes P) b (values.reverse ++ vs) r →
      ∃ m, ∀ n, m ≤ n → ∀ fuel, m ≤ fuel → (P n).tillFrom (Q n) fuel values c = some r := by
  induction h with
  | none =>
    intro values hx
    rw [List.append_nil] at hx
    exact hx.tillFrom hP hQ hback
  | @pass c d b v vs hr hne _ ih =>
    intro values hx
    obtain ⟨e, x, ⟨m, hm⟩, ⟨k, hk⟩⟩ := hr
    obtain ⟨l, hl⟩ := ih (v :: values) (by rwa [List.reverse_cons, List.append_assoc])
    refine ⟨max l (max m k) + 1, fun n hn fuel hf => ?_⟩
    obtain ⟨fuel, rfl⟩ := Nat.exists_eq_add_of_le' (Nat.le_trans (Nat.le_add_left 1 _) hf)
    have hne' : Cursor.offset d ≠ Cursor.offset (Cursor.restore x c) := by rwa [hback]
    rw [Parser.tillFrom_round fuel values (hQ.le (by omega) hm) (hP.le (by omega) hk) hne']
    exact hl n (by omega) fuel (by omega)

/-- There is nothing else for it to do: by induction on its fuel. -/
theorem passes_of_tillFrom (hback : GoesBack σ) {n : Nat} :
    ∀ {fuel : Nat} {values : List α} {c : σ}, (P n).tillFrom (Q n) fuel values c = some r →
      ∃ vs b, Passes (Retries (Comes Q) (Comes P)) c vs b ∧
        Exit (Comes Q) (Comes P) b (values.reverse ++ vs) r
  | fuel + 1, values, c, h => by
    rw [Parser.tillFrom_succ] at h
    match hq : Q n c with
    | none => simp [hq] at h
    | some ⟨.ok w, d⟩ =>
      rw [hq] at h
      cases h
      exact ⟨[], c, .none, by rw [List.append_nil]; exact .ended ⟨n, hq⟩⟩
    | some ⟨.error e, x⟩ =>
      simp only [hq] at h
      match hp : P n (Cursor.restore x c) with
      | none => simp [hp] at h
      | some ⟨.error f, d⟩ =>
        rw [hp] at h
        cases h
        exact ⟨[], c, .none, .failed ⟨e, x, ⟨n, hq⟩, ⟨n, hp⟩⟩⟩
      | some ⟨.ok v, d⟩ =>
        simp only [hp, hback x c] at h
        by_cases ho : Cursor.offset d = Cursor.offset c
        · rw [if_pos ho] at h
          cases h
          exact ⟨[], c, .none, .idle ⟨n, hq⟩ ⟨n, hp⟩ ho⟩
        · rw [if_neg ho] at h
          obtain ⟨vs, b, hvs, hx⟩ := passes_of_tillFrom hback h
          rw [List.reverse_cons, List.append_assoc] at hx
          exact ⟨v :: vs, b, .pass ⟨e, x, ⟨n, hq⟩, ⟨n, hp⟩⟩ ho hvs, hx⟩

end

namespace Grammar

variable {σ ε α β : Type} {S : Signature} [Cursor σ ε] [Element ε] [Interprets S σ]

/-- Rounds and how they are over are all there is to a loop up to an end. -/
theorem manyTill_returns_iff (hback : GoesBack σ) {p : Grammar ε S [] α} {stop : Grammar ε S [] β}
    {c : σ} {r : Reply σ (List α)} : (manyTill p stop).Returns c r ↔
      ∃ vs b, Passes (Retries stop.Returns p.Returns) c vs b ∧
        Exit stop.Returns p.Returns b vs r := by
  constructor
  · rintro ⟨n, h⟩
    exact passes_of_tillFrom (P := p.parser) (Q := stop.parser) hback h
  · rintro ⟨vs, b, hvs, hx⟩
    obtain ⟨m, hm⟩ := Passes.tillFrom p.fueled stop.fueled hback hvs [] hx
    exact ⟨m, hm m (Nat.le_refl m) m (Nat.le_refl m)⟩

end Grammar

/-! ## Without checkpoints -/

section

variable {σ ε V α β : Type} [Cursor σ ε] [Element ε] {S : Signature} [Interprets S σ]

/-- From `c` the end fails, and `p` comes to `r` from the same place. -/
def Onward (p : Grammar ε S [] α) (stop : Grammar ε S [] β) (c : σ) (r : Reply σ α) : Prop :=
  (∃ e x, stop.Returns c ⟨.error e, x⟩) ∧ p.Returns c r

/-- What the values of `p` from `c` up to `stop` come to, and where. -/
inductive Delimited (p : Grammar ε S [] α) (stop : Grammar ε S [] β) (c : σ) :
    Except ParseError (List α) → σ → Prop
  /-- The end is there. -/
  | ended {vs b w d} : Passes (Onward p stop) c vs b → stop.Returns b ⟨.ok w, d⟩ →
    Delimited p stop c (.ok vs) d
  /-- Neither the end nor another value is there. -/
  | failed {vs b e d} : Passes (Onward p stop) c vs b → Onward p stop b ⟨.error e, d⟩ →
    Delimited p stop c (.error e) d
  /-- The end is not there, and what is there instead consumes nothing. -/
  | idle {vs b e x v d} : Passes (Onward p stop) c vs b → stop.Returns b ⟨.error e, x⟩ →
    p.Returns b ⟨.ok v, d⟩ → Cursor.offset d = Cursor.offset b → Delimited p stop c (.error e) b

variable (S) in
/-- What is promised of loops up to an end at `c`: they come to what is delimited, and stop
there. -/
def Delimits (seen : σ → V) (c : σ) : Prop :=
  ∀ (α β : Type) (p : Grammar ε S [] α) (stop : Grammar ε S [] β)
    (result : Except ParseError (List α)) (final : V),
    Outcome seen (.manyTill p stop) c result final ↔
      ∃ d, Delimited p stop c result d ∧ seen d = final

/-! ## Places that cannot be told apart -/

variable {seen : σ → V} {start c d x : σ} {v : α} {e : ParseError} {p : Grammar ε S [] α}
  {stop : Grammar ε S [] β}

/-- What follows a success is what comes after it in sequence. -/
theorem outcome_right_iff (hp : p.Returns c ⟨.ok v, x⟩) (q : Grammar ε S [] β)
    (result : Except ParseError β) (final : V) :
    Outcome seen (.right p q) c result final ↔ Outcome seen q x result final := by
  constructor
  · rintro ⟨y, ⟨n, hn⟩, hf⟩
    obtain ⟨e, z, hz, -⟩ | ⟨w, z, hz, hq⟩ := Parser.andThen_eq_some_iff.1 hn
    · cases hp.unique ⟨n, hz⟩
    · cases hp.unique ⟨n, hz⟩
      exact ⟨y, ⟨n, hq⟩, hf⟩
  · rintro ⟨y, ⟨m, hm⟩, hf⟩
    obtain ⟨n, hn⟩ := hp
    refine ⟨y, ⟨max n m, ?_⟩, hf⟩
    have hn := Grammar.parser_le (Nat.le_max_left n m) hn
    exact (Parser.andThen_ok hn).trans (Grammar.parser_le (Nat.le_max_right n m) hm)

variable (S seen start) in
/-- Places that can be reached and cannot be told apart. -/
structure Twins (c d : σ) : Prop where
  left : Reachable S start c
  right : Reachable S start d
  alike : Alike S seen c d

theorem Twins.symm (h : Twins S seen start c d) : Twins S seen start d c :=
  ⟨h.right, h.left, h.alike.symm⟩

/-- After a run that has been undone. -/
theorem Twins.undone (hb : Restores S seen start) (h : Twins S seen start c d)
    (hr : stop.Returns c ⟨.error e, x⟩) : Twins S seen start (Cursor.restore x c) d :=
  ⟨.restore (h.left.run hr) h.left, h.right, (hb.alike h.left hr).trans h.alike⟩

/-- The same success leads from both of them to two such places. -/
theorem Twins.run (h : Twins S seen start c d) (hp : p.Returns c ⟨.ok v, x⟩) :
    ∃ y, p.Returns d ⟨.ok v, y⟩ ∧ Twins S seen start x y := by
  obtain ⟨y, hy, -⟩ := h.alike.returns hp
  refine ⟨y, hy, h.left.run hp, h.right.run hy, fun β q result final => ?_⟩
  calc Outcome seen q x result final
      ↔ Outcome seen (.right p q) c result final := (outcome_right_iff hp q result final).symm
    _ ↔ Outcome seen (.right p q) d result final := h.alike β (.right p q) result final
    _ ↔ Outcome seen q y result final := outcome_right_iff hy q result final

/-- Rounds that lead from one of the two places lead from the other. -/
theorem Passes.twins {step step' : σ → Reply σ α → Prop} {vs : List α} {b : σ}
    (ho : ∀ {c d}, Twins S seen start c d → Cursor.offset c = Cursor.offset d)
    (hstep : ∀ {c d v x}, Twins S seen start c d → step c ⟨.ok v, x⟩ →
      ∃ y, step' d ⟨.ok v, y⟩ ∧ Twins S seen start x y)
    (h : Passes step c vs b) (hc : Twins S seen start c d) :
    ∃ b', Passes step' d vs b' ∧ Twins S seen start b b' := by
  induction h generalizing d with
  | none => exact ⟨d, .none, hc⟩
  | pass hv hne _ ih =>
    obtain ⟨y, hy, hx⟩ := hstep hc hv
    obtain ⟨b', hb', ht⟩ := ih hx
    rw [ho hc, ho hx] at hne
    exact ⟨b', .pass hy hne hb', ht⟩

/-! ## Delimited values -/

theorem Twins.onward (hb : Restores S seen start) (h : Twins S seen start c d)
    (hr : Retries stop.Returns p.Returns c ⟨.ok v, x⟩) :
    ∃ y, Onward p stop d ⟨.ok v, y⟩ ∧ Twins S seen start x y := by
  obtain ⟨e, z, he, hp⟩ := hr
  obtain ⟨y, hy, ht⟩ := (h.undone hb he).run hp
  exact ⟨y, ⟨⟨e, h.alike.fails ⟨z, he⟩⟩, hy⟩, ht⟩

theorem Twins.retries (hb : Restores S seen start) (h : Twins S seen start c d)
    (hr : Onward p stop c ⟨.ok v, x⟩) :
    ∃ y, Retries stop.Returns p.Returns d ⟨.ok v, y⟩ ∧ Twins S seen start x y := by
  obtain ⟨⟨e, z, he⟩, hp⟩ := hr
  obtain ⟨z', he'⟩ := h.alike.fails ⟨z, he⟩
  obtain ⟨y, hy, ht⟩ := (h.symm.undone hb he').symm.run hp
  exact ⟨y, ⟨e, z', he', hy⟩, ht⟩

/-- What is to be shown of a kind of cursor: that checkpoints are gone back to, that a run which is
undone leads back to a place like the one where it began, and that so does a run that goes
nowhere. -/
theorem Restores.delimits (hback : GoesBack σ) (hb : Restores S seen c) (hs : Steady S seen c) :
    Delimits S seen c := by
  intro α β p stop result final
  have hc : Twins S seen c c c := ⟨.start, .start, Alike.refl c⟩
  have ho : ∀ {a d}, Twins S seen c a d → Cursor.offset a = Cursor.offset d :=
    fun h => hs.offset h.alike.seen_eq
  constructor
  · rintro ⟨x, hx, rfl⟩
    obtain ⟨vs, b, hvs, hexit⟩ := (Grammar.manyTill_returns_iff hback).1 hx
    obtain ⟨b', hb', ht⟩ := hvs.twins ho (fun h hr => h.onward hb hr) hc
    cases hexit with
    | ended hw =>
      obtain ⟨y, hy, hl⟩ := ht.alike.returns hw
      exact ⟨y, .ended hb' hy, hl⟩
    | failed hr =>
      obtain ⟨f, z, hz, hp⟩ := hr
      obtain ⟨y, hy, hl⟩ := (ht.undone hb hz).alike.returns hp
      exact ⟨y, .failed hb' ⟨⟨f, ht.alike.fails ⟨z, hz⟩⟩, hy⟩, hl⟩
    | idle he hv hi =>
      obtain ⟨z, hz⟩ := ht.alike.fails ⟨_, he⟩
      obtain ⟨y, hy, hxy⟩ := (ht.undone hb he).run hv
      have hi' : Cursor.offset y = Cursor.offset b' := (ho hxy).symm.trans (hi.trans (ho ht))
      have hyb : Alike S seen y b' := hs.alike ht.right hy hi'
      exact ⟨b', .idle hb' hz hy hi', (hxy.alike.trans hyb).seen_eq.symm⟩
  · rintro ⟨x, hx, rfl⟩
    suffices h : ∃ r, (Grammar.manyTill p stop).Returns c r ∧ r.result = result ∧
        seen r.cursor = seen x by
      obtain ⟨⟨result', y⟩, hy, rfl, hl⟩ := h
      exact ⟨y, hy, hl⟩
    cases hx with
    | ended hvs hw =>
      obtain ⟨b', hb', ht⟩ := hvs.twins ho (fun h hr => h.retries hb hr) hc
      obtain ⟨y, hy, hl⟩ := ht.alike.returns hw
      exact ⟨_, (Grammar.manyTill_returns_iff hback).2 ⟨_, b', hb', .ended hy⟩, rfl, hl⟩
    | failed hvs hr =>
      obtain ⟨b', hb', ht⟩ := hvs.twins ho (fun h hr => h.retries hb hr) hc
      obtain ⟨⟨f, z, hz⟩, hp⟩ := hr
      obtain ⟨z', hz'⟩ := ht.alike.fails ⟨z, hz⟩
      obtain ⟨y, hy, hl⟩ := (ht.symm.undone hb hz').alike.symm.returns hp
      exact ⟨_, (Grammar.manyTill_returns_iff hback).2 ⟨_, b', hb', .failed ⟨f, z', hz', hy⟩⟩,
        rfl, hl⟩
    | idle hvs he hv hi =>
      obtain ⟨b', hb', ht⟩ := hvs.twins ho (fun h hr => h.retries hb hr) hc
      obtain ⟨z, hz⟩ := ht.alike.fails ⟨_, he⟩
      obtain ⟨y, hy, hdy⟩ := (ht.symm.undone hb hz).symm.run hv
      have hi' : Cursor.offset y = Cursor.offset b' := (ho hdy).symm.trans (hi.trans (ho ht))
      have hdb := hs.alike ht.left hv hi
      exact ⟨_, (Grammar.manyTill_returns_iff hback).2 ⟨_, b', hb', .idle hz hy hi'⟩, rfl,
        (hdy.symm.alike.trans hdb).seen_eq⟩

end

/-! ## Texts and fused sources -/

theorem TextCursor.restores_self (c : TextCursor) : Restores .text id c :=
  ⟨fun _ _ => Alike.refl _⟩

theorem TextCursor.steady_self (c : TextCursor) : Steady .text id c :=
  steady_of (fun h => congrArg TextCursor.offset h) c

/-- From every place in a text, and from every place of a cursor whose source is fused, a loop up to
an end comes to exactly what is delimited: on a text at the same cursor, on a source at the same
index. -/
theorem manyTill_exact :
    (∀ c : TextCursor, Delimits .text id c) ∧
    (∀ {s ε : Type} [Source s ε] [Element ε] (c : Buffered s ε), Source.Fused c.source →
      Delimits .plain Buffered.pos c) :=
  ⟨fun c => c.restores_self.delimits (fun _ _ => rfl) c.steady_self,
    fun _ h => (Buffered.restores_self h).delimits (fun _ _ => rfl) (Buffered.steady_self h)⟩

/-- Both times the end fails after it has consumed something. On the text it is a value the first
time; on the source nothing is read instead, and the failure is that of the end. -/
theorem semicolons_delimited :
    Outcome (S := .text) id
        (.manyTill .any (.right (.satisfy (· == ';')) (.satisfy (· == ';'))))
        (TextCursor.ofText [';', 'é', ';', ';']) (.ok [';', 'é'])
        ⟨[';', ';', 'é', ';'], [], 5, 1⟩ ∧
      Source.Fused (Script.ofList [some (1 : Int), some 2]) ∧
      Outcome Buffered.pos
        (.manyTill (.opt (.satisfy (· == 1))) (.right .any (.satisfy (· == 3))) :
          Grammar Int .plain [] (List (Option Int)))
        (Buffered.ofSource (Script.ofList [some (1 : Int), some 2]) : Buffered _ Int)
        (.error (.endOfInput 2)) 1 := by
  have hf := (Script.yields [(1 : Int), 2]).fused
  refine ⟨?_, hf, ?_⟩
  · have hrounds : Passes
        (Onward (S := .text) .any (.right (.satisfy (· == ';')) (.satisfy (· == ';'))))
        (TextCursor.ofText [';', 'é', ';', ';']) [';', 'é'] ⟨['é', ';'], [';', ';'], 3, 1⟩ :=
      .pass (d := ⟨[';'], ['é', ';', ';'], 1, 1⟩) ⟨⟨_, _, 0, rfl⟩, 0, rfl⟩ (by decide)
        (.pass ⟨⟨_, _, 0, rfl⟩, 0, rfl⟩ (by decide) .none)
    exact (manyTill_exact.1 _ _ _ _ _ _ _).2 ⟨_, .ended hrounds ⟨0, rfl⟩, rfl⟩
  · have hround : Passes
        (Onward (S := .plain) (.opt (.satisfy (· == 1))) (.right .any (.satisfy (· == 3))))
        (Buffered.ofSource (Script.ofList [some (1 : Int), some 2]) : Buffered _ Int) [some 1]
        ⟨⟨[some 2], 1⟩, #[1], 1⟩ :=
      .pass ⟨⟨_, _, 0, rfl⟩, 0, rfl⟩ (by decide) .none
    refine (manyTill_exact.2 _ hf _ _ _ _ _ _).2 ⟨_, .idle hround ⟨0, rfl⟩ ⟨0, rfl⟩ rfl, rfl⟩

end Descent
