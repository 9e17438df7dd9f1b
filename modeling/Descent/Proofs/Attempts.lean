import Descent.Proofs.Commitment
import Descent.Proofs.Undone

/-!
# Choice by attempts: `attempt` / `try_choice`

`tryChoice` goes on to the next alternative whenever one fails, from the checkpoint, except after
the last one, which it leaves as it is. Main theorem `tryChoice_attempts`: on a text and on a fused
source this is `or` between the alternatives, all but the last under `attempt`; it fails as the last
alternative does; and it succeeds wherever `choice` does, with the same.
-/

namespace Descent

section

variable {σ ε V α : Type} [Cursor σ ε] [Element ε] {S : Signature} [Interprets S σ]

def Fails (c : σ) (p : Grammar ε S [] α) : Prop := ∃ e d, p.Returns c ⟨.error e, d⟩

/-- Alternatives with `or` between them, all but the last under `attempt`. -/
def Grammar.attempts : List (Grammar ε S [] α) → (last : Grammar ε S [] α) → Grammar ε S [] α
  | [], last => last
  | p :: ps, last => .or (.attempt p) (attempts ps last)

variable (S) (seen : σ → V)

/-- What is promised of choices that attempt their alternatives at `c`. -/
structure Attempts (c : σ) : Prop where
  /-- They end as attempts in a row do, and only the failures differ. -/
  row {α : Type} (label : String) (ps : List (Grammar ε S [] α)) (q : Grammar ε S [] α)
    (v : Option α) (final : V) : Ends seen (.tryChoice label (.family (ps ++ [q]))) c v final ↔
      Ends seen (.attempts ps q) c v final
  /-- They fail if all alternatives do, and as the last of them. -/
  last {α : Type} (label : String) (ps : List (Grammar ε S [] α)) (q : Grammar ε S [] α)
    (e : ParseError) (final : V) :
    Outcome seen (.tryChoice label (.family (ps ++ [q]))) c (.error e) final ↔
      (∀ p ∈ ps, Fails c p) ∧ Outcome seen q c (.error e) final
  /-- Where a committed choice succeeds, so does one by attempts. -/
  choice {α : Type} (label label' : String) (ps : List (Grammar ε S [] α)) (v : α) (final : V) :
    Outcome seen (.choice label (.family ps)) c (.ok v) final →
      Outcome seen (.tryChoice label' (.family ps)) c (.ok v) final

end

/-! ## One run -/

namespace Parser

variable {σ ε α : Type} [Cursor σ ε] {p : Parser σ α} {c : σ}

theorem attempt_eq_some_iff {r : Reply σ α} :
    p.attempt c = some r ↔
      (∃ e d, p c = some ⟨.error e, d⟩ ∧ ⟨.error e, Cursor.restore d c⟩ = r) ∨
        ∃ v d, p c = some ⟨.ok v, d⟩ ∧ ⟨.ok v, d⟩ = r := by
  unfold attempt
  match p c with
  | none => simp
  | some ⟨.error e, d⟩ => simp [and_assoc]
  | some ⟨.ok v, d⟩ => simp [and_assoc]

theorem tryChoice_ok {v : α} {d : σ} (label : String) (h : p c = some ⟨.ok v, d⟩) :
    ∀ ps, tryChoice label (p :: ps) c = some ⟨.ok v, d⟩
  | [] => h
  | q :: qs => by simp only [tryChoice, h]

end Parser

section

variable {σ ε V α : Type} [Cursor σ ε] [Element ε] {S : Signature} [Interprets S σ] {seen : σ → V}
  {start c d : σ} {label : String} {p q : Grammar ε S [] α} {ps qs : List (Grammar ε S [] α)}
  {e : ParseError} {result : Except ParseError α} {v : Option α} {final : V} {r : Reply σ α}

/-- To decline is to fail. -/
theorem fails_of_declines {es : List ParseError} (h : List.Forall₂ (Declines c) ps es) :
    ∀ p ∈ ps, Fails c p := by
  induction h with
  | nil => simp
  | cons hp _ ih =>
    obtain ⟨d, hp, -⟩ := hp
    exact List.forall_mem_cons.2 ⟨⟨_, d, hp⟩, ih⟩

theorem Grammar.attempt_returns_iff : (attempt p).Returns c r ↔
    (∃ e d, p.Returns c ⟨.error e, d⟩ ∧ ⟨.error e, Cursor.restore d c⟩ = r) ∨
      ∃ v d, p.Returns c ⟨.ok v, d⟩ ∧ ⟨.ok v, d⟩ = r := by
  constructor
  · rintro ⟨n, h⟩
    obtain ⟨e, d, hp, he⟩ | ⟨v, d, hp, he⟩ := Parser.attempt_eq_some_iff.1 h
    · exact .inl ⟨e, d, ⟨n, hp⟩, he⟩
    · exact .inr ⟨v, d, ⟨n, hp⟩, he⟩
  · rintro (⟨e, d, ⟨n, hp⟩, he⟩ | ⟨v, d, ⟨n, hp⟩, he⟩)
    · exact ⟨n, Parser.attempt_eq_some_iff.2 (.inl ⟨e, d, hp, he⟩)⟩
    · exact ⟨n, Parser.attempt_eq_some_iff.2 (.inr ⟨v, d, hp, he⟩)⟩

/-- One alternative alone is that alternative. -/
theorem Grammar.tryChoice_one :
    (tryChoice label (family [q])).Returns c r ↔ q.Returns c r := by
  unfold Returns
  simp only [parser_tryChoice]
  rfl

theorem Grammar.tryChoice_ok {v : α} (h : p.Returns c ⟨.ok v, d⟩) :
    (tryChoice label (family (p :: ps))).Returns c ⟨.ok v, d⟩ := by
  obtain ⟨n, hn⟩ := h
  refine ⟨n, ?_⟩
  rw [parser_tryChoice]
  exact Parser.tryChoice_ok label hn _

/-- A choice that comes to something has run its first alternative. -/
theorem Grammar.of_tryChoice (h : (tryChoice label (family (p :: ps))).Returns c r) :
    ∃ r', p.Returns c r' := by
  obtain ⟨n, hn⟩ := h
  rw [parser_tryChoice, List.map_cons] at hn
  cases hp : (p.parser n : Parser σ α) c with
  | some r' => exact ⟨r', n, hp⟩
  | none =>
    cases ps with
    | nil => cases hp.symm.trans hn
    | cons q qs => cases (Parser.tryChoice_none label hp).symm.trans hn

/-! ## One alternative and others -/

/-- Before others an alternative is attempted: either it succeeds, or they run as if it had not. -/
theorem Restores.tryChoice_cons_iff (hb : Restores S seen start) (hc : Reachable S start c)
    (hne : qs ≠ []) : Outcome seen (.tryChoice label (.family (p :: qs))) c result final ↔
      (∃ v, result = .ok v ∧ Outcome seen p c (.ok v) final) ∨
        (Fails c p ∧ Outcome seen (.tryChoice label (.family qs)) c result final) := by
  obtain ⟨q, qs, rfl⟩ := List.exists_cons_of_ne_nil hne
  -- the others run from the checkpoint, which is like the start
  have hothers : ∀ {e d}, p.Returns c ⟨.error e, d⟩ →
      (Outcome seen (.tryChoice label (.family (p :: q :: qs))) c result final ↔
        Outcome seen (.tryChoice label (.family (q :: qs))) c result final) := by
    intro e d hp
    refine Iff.trans ?_ (hb.alike hc hp α _ result final)
    exact exists_congr fun x => and_congr_left fun _ => Grammar.tryChoice_returns_iff label hp _
  constructor
  · rintro ⟨d, hd, hf⟩
    obtain ⟨⟨e | v, x⟩, hp⟩ := Grammar.of_tryChoice hd
    · exact .inr ⟨⟨e, x, hp⟩, (hothers hp).1 ⟨d, hd, hf⟩⟩
    · cases hd.unique (Grammar.tryChoice_ok hp)
      exact .inl ⟨v, rfl, d, hp, hf⟩
  · rintro (⟨v, rfl, d, hp, hf⟩ | ⟨⟨e, d, hp⟩, h⟩)
    · exact ⟨d, Grammar.tryChoice_ok hp, hf⟩
    · exact (hothers hp).2 h

theorem Restores.ends_attempt_iff (hb : Restores S seen start) (hc : Reachable S start c) :
    Ends seen (.attempt p) c v final ↔
      (∃ w, v = some w ∧ Outcome seen p c (.ok w) final) ∨
        (Fails c p ∧ v = none ∧ final = seen c) := by
  rw [ends_iff_returns]
  constructor
  · rintro ⟨r, hr, rfl, rfl⟩
    obtain ⟨e, d, hp, rfl⟩ | ⟨w, d, hp, rfl⟩ := Grammar.attempt_returns_iff.1 hr
    · exact .inr ⟨⟨e, d, hp⟩, rfl, (hb.alike hc hp).seen_eq⟩
    · exact .inl ⟨w, rfl, d, hp, rfl⟩
  · rintro (⟨w, rfl, d, hp, hf⟩ | ⟨⟨e, d, hp⟩, rfl, rfl⟩)
    · exact ⟨_, Grammar.attempt_returns_iff.2 (.inr ⟨w, d, hp, rfl⟩), rfl, hf⟩
    · refine ⟨_, Grammar.attempt_returns_iff.2 (.inl ⟨e, d, hp, rfl⟩), rfl, ?_⟩
      exact (hb.alike hc hp).seen_eq

/-- With `or` an attempt comes before what is next in the same way. -/
theorem Restores.ends_or_attempt_iff (hb : Restores S seen start) (hs : Steady S seen start)
    (hc : Reachable S start c) : Ends seen (.or (.attempt p) q) c v final ↔
      (∃ w, v = some w ∧ Outcome seen p c (.ok w) final) ∨ (Fails c p ∧ Ends seen q c v final) := by
  rw [hs.ends_or hc]
  constructor
  · rintro (⟨hp, hn⟩ | ⟨hp, hq⟩)
    · obtain h | ⟨-, hnone⟩ := hb.ends_attempt_iff hc |>.1 hp
      · exact .inl h
      · exact absurd hnone hn
    · obtain ⟨w, hw, -⟩ | ⟨hp, -⟩ := hb.ends_attempt_iff hc |>.1 hp
      · cases hw
      · exact .inr ⟨hp, hq⟩
  · rintro (⟨w, rfl, h⟩ | ⟨hp, hq⟩)
    · refine .inl ⟨(hb.ends_attempt_iff hc).2 (.inl ⟨w, rfl, h⟩), ?_⟩
      rintro ⟨hw, -⟩
      cases hw
    · exact .inr ⟨(hb.ends_attempt_iff hc).2 (.inr ⟨hp, rfl, rfl⟩), hq⟩

/-! ## All alternatives -/

theorem Restores.ends_tryChoice_iff (hb : Restores S seen start) (hs : Steady S seen start)
    (hc : Reachable S start c) : ∀ ps : List (Grammar ε S [] α),
      Ends seen (.tryChoice label (.family (ps ++ [q]))) c v final ↔
        Ends seen (.attempts ps q) c v final
  | [] => by
    simp only [ends_iff_returns]
    exact exists_congr fun r => and_congr_left fun _ => Grammar.tryChoice_one
  | p :: ps => by
    have hne : ps ++ [q] ≠ [] := by simp
    rw [Grammar.attempts, hb.ends_or_attempt_iff hs hc, ← hb.ends_tryChoice_iff hs hc ps]
    unfold Ends
    rw [List.cons_append]
    simp only [hb.tryChoice_cons_iff hc hne]
    constructor
    · rintro ⟨result, ⟨w, rfl, h⟩ | ⟨hp, h⟩, rfl⟩
      · exact .inl ⟨w, rfl, h⟩
      · exact .inr ⟨hp, result, h, rfl⟩
    · rintro (⟨w, rfl, h⟩ | ⟨hp, result, h, rfl⟩)
      · exact ⟨.ok w, .inl ⟨w, rfl, h⟩, rfl⟩
      · exact ⟨result, .inr ⟨hp, h⟩, rfl⟩

theorem Restores.tryChoice_error_iff (hb : Restores S seen start) (hc : Reachable S start c) :
    ∀ ps : List (Grammar ε S [] α),
      Outcome seen (.tryChoice label (.family (ps ++ [q]))) c (.error e) final ↔
        (∀ p ∈ ps, Fails c p) ∧ Outcome seen q c (.error e) final
  | [] => by
    simp only [List.not_mem_nil, false_imp_iff, implies_true, true_and]
    exact exists_congr fun d => and_congr_left fun _ => Grammar.tryChoice_one
  | p :: ps => by
    have hne : ps ++ [q] ≠ [] := by simp
    rw [List.cons_append, hb.tryChoice_cons_iff hc hne, hb.tryChoice_error_iff hc ps,
      List.forall_mem_cons, and_assoc]
    simp

/-- Alternatives that fail make no difference to those after them. -/
theorem Restores.tryChoice_after (hb : Restores S seen start) (hc : Reachable S start c)
    (hne : qs ≠ []) (h : Outcome seen (.tryChoice label (.family qs)) c result final) :
    ∀ {ps : List (Grammar ε S [] α)}, (∀ p ∈ ps, Fails c p) →
      Outcome seen (.tryChoice label (.family (ps ++ qs))) c result final
  | [], _ => h
  | p :: ps, hps => by
    obtain ⟨hp, hps⟩ := List.forall_mem_cons.1 hps
    have hne' : ps ++ qs ≠ [] := by simp [hne]
    exact (hb.tryChoice_cons_iff hc hne').2 (.inr ⟨hp, hb.tryChoice_after hc hne h hps⟩)

theorem Restores.attempts (hb : Restores S seen start) (hs : Steady S seen start)
    (hc : Reachable S start c) : Attempts S seen c where
  row _ ps _ _ _ := hb.ends_tryChoice_iff hs hc ps
  last _ ps _ _ _ := hb.tryChoice_error_iff hc ps
  choice {α} label label' ps v final h := by
    obtain ⟨d, hset, rfl⟩ := (hs.choice_iff hc).1 h
    cases hset with
    | @chosen before p after es v d hes hp =>
      have hchosen : Outcome seen (.tryChoice label' (.family (p :: after))) c (.ok v) (seen d) :=
        ⟨d, Grammar.tryChoice_ok hp, rfl⟩
      exact hb.tryChoice_after hc (by simp) hchosen (fails_of_declines hes)

end

/-- From every cursor that can be reached on a text, and on a fused source, a choice by attempts is
`or` between attempts of its alternatives, with the failure of the last one for its own. -/
theorem tryChoice_attempts :
    (∀ (text : List Char) (c : TextCursor), Reachable .text (TextCursor.ofText text) c →
      Attempts .text (fun c : TextCursor => (c.offset, c.line)) c) ∧
    (∀ {s ε : Type} [Source s ε] [Element ε] (source : s), Source.Fused source →
      ∀ c : Buffered s ε, Reachable .plain (Buffered.ofSource source) c →
        Attempts .plain Buffered.pos c) :=
  ⟨fun text _ hc => (TextCursor.restores _).attempts (TextCursor.steady text) hc,
    fun _ hs _ hc => (Buffered.restores hs).attempts (Buffered.steady hs) hc⟩

/-- Two alternatives fail after consuming different amounts. On a source an attempt is taken back,
and a committed choice has declined its first alternative. -/
theorem second_attempt :
    Reachable .text (TextCursor.ofText ['é', '\n']) (TextCursor.ofText ['é', '\n']) ∧
      Outcome (S := .text) (fun c : TextCursor => (c.offset, c.line))
        (.tryChoice "line" (.family ([.right .any (.fail "first")] ++
          [.right .any (.right .any (.fail "second"))])))
        (TextCursor.ofText ['é', '\n']) (.error (.failure 3 "second") : Except ParseError Unit)
        (3, 2) ∧
      Source.Fused (Script.ofList [some (1 : Int), some 2]) ∧
      Ends Buffered.pos
        (.tryChoice "" (.family ([.right .any (.fail "first")] ++ [.any])) :
          Grammar Int .plain [] Int)
        (Buffered.ofSource (Script.ofList [some (1 : Int), some 2]) : Buffered _ Int)
        (some 1) 1 ∧
      Outcome Buffered.pos
        (.tryChoice "" (.family [.fail "first", .any]) : Grammar Int .plain [] Int)
        (Buffered.ofSource (Script.ofList [some (1 : Int), some 2]) : Buffered _ Int)
        (.ok 1) 1 := by
  have hf := (Script.yields [(1 : Int), 2]).fused
  have ht := tryChoice_attempts.1 ['é', '\n'] _ .start
  have hs := tryChoice_attempts.2 _ hf _ .start
  refine ⟨.start, ?_, hf, ?_, ?_⟩
  · refine (ht.last "line" _ _ _ _).2 ⟨?_, ⟨['\n', 'é'], [], 3, 2⟩, ⟨0, rfl⟩, rfl⟩
    simp only [List.forall_mem_singleton]
    exact ⟨_, _, 0, rfl⟩
  · exact (hs.row "" _ _ _ _).2 ⟨.ok 1, ⟨_, ⟨0, rfl⟩, rfl⟩, rfl⟩
  · exact hs.choice "" "" _ 1 1 ⟨_, ⟨0, rfl⟩, rfl⟩

end Descent
