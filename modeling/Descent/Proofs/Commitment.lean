import Descent.Proofs.Alike
import Descent.Proofs.Termination

/-!
# Committed choice: `or` / `choice`

`choice` and `or` are written separately. Both go on to the next alternative only if the one before
it has failed where the choice began, and both run it from wherever that one has left the cursor.
`Settled` states what this should amount to without any order of runs: every alternative is run from
the start of the choice, and the first that does not decline settles it.

Main theorem `choice_commits`: on a text and on a fused source a choice comes to what settles it,
and so does every nesting of `or` over the same alternatives (`Nesting`).
-/

namespace Descent

section

variable {σ ε V α : Type} [Cursor σ ε] [Element ε] {S : Signature} [Interprets S σ]

/-- From `c` the alternative fails with `e` and consumes nothing, which leaves the choice to the
others. -/
def Declines (c : σ) (p : Grammar ε S [] α) (e : ParseError) : Prop :=
  ∃ d, p.Returns c ⟨.error e, d⟩ ∧ Cursor.offset d = Cursor.offset c

/-- What a choice at `c` comes to, and where. `known` are the failures of alternatives that have
declined already. -/
inductive Settled (label : String) (c : σ) (known : List ParseError) :
    List (Grammar ε S [] α) → Except ParseError α → σ → Prop
  /-- All alternatives decline. -/
  | declined {ps es} : List.Forall₂ (Declines c) ps es →
    Settled label c known ps (.error (.expected label (Cursor.offset c) (known ++ es))) c
  /-- The first that does not decline succeeds. -/
  | chosen {before p after es v d} : List.Forall₂ (Declines c) before es →
    p.Returns c ⟨.ok v, d⟩ → Settled label c known (before ++ p :: after) (.ok v) d
  /-- The first that does not decline fails after consuming something. -/
  | committed {before p after es e d} : List.Forall₂ (Declines c) before es →
    p.Returns c ⟨.error e, d⟩ → Cursor.offset d ≠ Cursor.offset c →
    Settled label c known (before ++ p :: after)
      (.error (.expected label (Cursor.offset c) (known ++ es ++ [e]))) d

/-- Alternatives with `or` between them, nested in any way. -/
inductive Nesting (ε : Type) (S : Signature) (α : Type) : Type 1
  | leaf (p : Grammar ε S [] α)
  | or (l r : Nesting ε S α)

def Nesting.grammar : Nesting ε S α → Grammar ε S [] α
  | leaf p => p
  | or l r => .or l.grammar r.grammar

/-- The alternatives in order. -/
def Nesting.leaves : Nesting ε S α → List (Grammar ε S [] α)
  | leaf p => [p]
  | or l r => l.leaves ++ r.leaves

variable (S) (seen : σ → V)

/-- From `c` the grammar succeeds with the value, or fails with some error if there is none, and the
cursor then looks like `final`. -/
def Ends {S : Signature} [Interprets S σ] (g : Grammar ε S [] α) (c : σ) (v : Option α)
    (final : V) : Prop :=
  ∃ result, Outcome seen g c result final ∧ result.toOption = v

/-- What is promised of choices at `c`. -/
structure Commits (c : σ) : Prop where
  /-- A choice comes to what settles it. -/
  choice {α : Type} (label : String) (ps : List (Grammar ε S [] α)) (result : Except ParseError α)
    (final : V) : Outcome seen (.choice label (.family ps)) c result final ↔
      ∃ d, Settled label c [] ps result d ∧ seen d = final
  /-- The alternatives after the one that settles it play no part. -/
  later {α : Type} (label : String) {before : List (Grammar ε S [] α)} {es : List ParseError}
    {p : Grammar ε S [] α} {r : Reply σ α} (after after' : List (Grammar ε S [] α)) :
    List.Forall₂ (Declines c) before es → p.Returns c r → (∀ e, ¬ Declines c p e) →
    ∀ result final, Outcome seen (.choice label (.family (before ++ p :: after))) c result final ↔
      Outcome seen (.choice label (.family (before ++ p :: after'))) c result final
  /-- However `or` is nested, it ends as the choice does, and only the failures differ. -/
  nested {α : Type} (label : String) (t : Nesting ε S α) (v : Option α) (final : V) :
    Ends seen t.grammar c v final ↔ Ends seen (.choice label (.family t.leaves)) c v final

end

/-! ## What settles a choice -/

section

variable {σ ε V α : Type} [Cursor σ ε] [Element ε] {S : Signature} [Interprets S σ] {label : String}
  {c d : σ} {known : List ParseError} {p : Grammar ε S [] α} {ps qs : List (Grammar ε S [] α)}
  {result : Except ParseError α}

theorem settled_nil_iff : Settled label c known ([] : List (Grammar ε S [] α)) result d ↔
    result = .error (.expected label (Cursor.offset c) known) ∧ d = c := by
  constructor
  · intro h
    generalize hps : ([] : List (Grammar ε S [] α)) = ps at h
    cases h with
    | declined hes =>
      subst hps
      cases hes
      simp
    | chosen => simp at hps
    | committed => simp at hps
  · rintro ⟨rfl, rfl⟩
    have h : Settled label d known ([] : List (Grammar ε S [] α)) _ d := .declined .nil
    rwa [List.append_nil] at h

/-- Either the first alternative settles the choice, or it declines and the others do. -/
theorem settled_cons_iff : Settled label c known (p :: ps) result d ↔
    (∃ v, result = .ok v ∧ p.Returns c ⟨.ok v, d⟩) ∨
    (∃ e, result = .error (.expected label (Cursor.offset c) (known ++ [e])) ∧
      p.Returns c ⟨.error e, d⟩ ∧ Cursor.offset d ≠ Cursor.offset c) ∨
    ∃ e, Declines c p e ∧ Settled label c (known ++ [e]) ps result d := by
  constructor
  · intro h
    generalize hqs : p :: ps = qs at h
    cases h with
    | declined hes =>
      subst hqs
      obtain _ | ⟨he, hes⟩ := hes
      rw [List.append_cons known]
      exact .inr (.inr ⟨_, he, .declined hes⟩)
    | @chosen before q after es v d hes hq =>
      obtain _ | ⟨he, hes⟩ := hes
      · obtain ⟨rfl, rfl⟩ := List.cons.inj hqs
        exact .inl ⟨v, rfl, hq⟩
      · obtain ⟨rfl, rfl⟩ := List.cons.inj hqs
        exact .inr (.inr ⟨_, he, .chosen hes hq⟩)
    | @committed before q after es e d hes hq hne =>
      obtain _ | ⟨he, hes⟩ := hes
      · obtain ⟨rfl, rfl⟩ := List.cons.inj hqs
        exact .inr (.inl ⟨e, by simp, hq, hne⟩)
      · obtain ⟨rfl, rfl⟩ := List.cons.inj hqs
        rw [List.append_cons known]
        exact .inr (.inr ⟨_, he, .committed hes hq hne⟩)
  · rintro (⟨v, rfl, hp⟩ | ⟨e, rfl, hp, hne⟩ | ⟨e, he, h⟩)
    · have h : Settled label c known ([] ++ p :: ps) _ d := .chosen .nil hp
      exact h
    · have h : Settled label c known ([] ++ p :: ps) _ d := .committed .nil hp hne
      rwa [List.append_nil] at h
    · cases h with
      | declined hes =>
        rw [← List.append_cons known]
        exact .declined (.cons he hes)
      | @chosen before q after es v d hes hq =>
        have h : Settled label c known ((p :: before) ++ q :: after) _ d :=
          .chosen (.cons he hes) hq
        exact h
      | @committed before q after es f d hes hq hne =>
        have h : Settled label c known ((p :: before) ++ q :: after) _ d :=
          .committed (.cons he hes) hq hne
        rwa [List.append_cons known] at h

/-- Only failures show what has declined before. -/
theorem Settled.forget (h : Settled label c known ps result d) (known' : List ParseError) :
    ∃ result', Settled label c known' ps result' d ∧ result'.toOption = result.toOption := by
  cases h with
  | declined hes => exact ⟨_, .declined hes, rfl⟩
  | chosen hes hp => exact ⟨_, .chosen hes hp, rfl⟩
  | committed hes hp hne => exact ⟨_, .committed hes hp hne, rfl⟩

end

/-! ## Runs that consume nothing -/

section

variable {σ ε V α : Type} [Cursor σ ε] [Element ε] {S : Signature} [Interprets S σ] {seen : σ → V}
  {start c c' d : σ} {label : String} {p q : Grammar ε S [] α} {ps : List (Grammar ε S [] α)}
  {e : ParseError} {result : Except ParseError α} {v : Option α} {final : V}

/-- What is to be shown of a kind of cursor: that its appearance tells how far it has got, and that
a run which ends where it began leaves a cursor like the one it began at. -/
structure Steady (S : Signature) [Interprets S σ] (seen : σ → V) (start : σ) : Prop where
  offset {c d : σ} : seen c = seen d → Cursor.offset c = Cursor.offset d
  alike {α : Type} {g : Grammar ε S [] α} {c : σ} {r : Reply σ α} : Reachable S start c →
    g.Returns c r → Cursor.offset r.cursor = Cursor.offset c → Alike S seen r.cursor c

theorem Alike.returns (h : Alike S seen c d) {r : Reply σ α} (hp : p.Returns c r) :
    ∃ x, p.Returns d ⟨r.result, x⟩ ∧ seen x = seen r.cursor :=
  (h α p r.result (seen r.cursor)).1 ⟨r.cursor, hp, rfl⟩

/-- Cursors that nothing can tell apart look the same. -/
theorem Alike.seen_eq (h : Alike S seen c d) : seen c = seen d := by
  have hc : (.ret () : Grammar ε S [] Unit).Returns c ⟨.ok (), c⟩ := ⟨0, rfl⟩
  have hd : (.ret () : Grammar ε S [] Unit).Returns d ⟨.ok (), d⟩ := ⟨0, rfl⟩
  obtain ⟨x, hx, hs⟩ := h.returns hc
  cases hx.unique hd
  exact hs.symm

theorem ends_iff_returns : Ends seen p c v final ↔
    ∃ r, p.Returns c r ∧ r.result.toOption = v ∧ seen r.cursor = final := by
  constructor
  · rintro ⟨result, ⟨d, hd, hf⟩, hv⟩
    exact ⟨_, hd, hv, hf⟩
  · rintro ⟨r, hr, hv, hf⟩
    exact ⟨r.result, ⟨r.cursor, hr, hf⟩, hv⟩

/-- An alternative declines if it ends without a value and without going anywhere. -/
theorem Steady.declines_iff (hs : Steady S seen start) (hc : Reachable S start c) :
    (∃ e, Declines c p e) ↔ Ends seen p c none (seen c) := by
  rw [ends_iff_returns]
  constructor
  · rintro ⟨e, d, hp, ho⟩
    exact ⟨_, hp, rfl, (hs.alike hc hp ho).seen_eq⟩
  · rintro ⟨⟨result, d⟩, hp, hv, hf⟩
    cases result with
    | ok v => cases hv
    | error e => exact ⟨e, d, hp, hs.offset hf⟩

/-! ## The runs of a choice -/

omit [Element ε] in
theorem Parser.choiceFrom_cons (label : String) (s : Nat) (p : Parser σ α) (ps : List (Parser σ α))
    (causes : List ParseError) (c : σ) :
    choiceFrom label s (p :: ps) causes c =
      match p c with
      | none => none
      | some ⟨.ok v, d⟩ => some ⟨.ok v, d⟩
      | some ⟨.error e, d⟩ =>
        if Cursor.offset d = s then choiceFrom label s ps (e :: causes) d
        else some ⟨.error (.expected label s (e :: causes).reverse), d⟩ := rfl

theorem Grammar.parser_choice (n : Nat) (label : String) (ps : List (Grammar ε S [] α)) :
    ((choice label (family ps)).parser n : Parser σ α) =
      Parser.choice label (ps.map (Grammar.parser n)) := by
  show Parser.choice label (List.ofFn fun i => (family ps i).parser n) = _
  congr 1
  exact List.ext_getElem (by simp) (by simp [family])

/-- What is left of a choice that began at the offset `s` comes to `r`. -/
def Chooses (label : String) (s : Nat) (ps : List (Grammar ε S [] α)) (causes : List ParseError)
    (c : σ) (r : Reply σ α) : Prop :=
  ∃ n, Parser.choiceFrom label s (ps.map (Grammar.parser n)) causes c = some r

theorem choiceFrom_le {n m : Nat} (hnm : n ≤ m) {s : Nat} {r : Reply σ α} :
    ∀ {ps : List (Grammar ε S [] α)} {causes : List ParseError} {c : σ},
      Parser.choiceFrom label s (ps.map (Grammar.parser n)) causes c = some r →
      Parser.choiceFrom label s (ps.map (Grammar.parser m)) causes c = some r
  | [], _, _, h => h
  | p :: ps, causes, c, h => by
    rw [List.map_cons, Parser.choiceFrom_cons] at h ⊢
    cases hp : (p.parser n : Parser σ α) c with
    | none => simp [hp] at h
    | some r' =>
      rw [hp] at h
      rw [Grammar.parser_le hnm hp]
      obtain ⟨_ | v, d⟩ := r'
      · dsimp only at h ⊢
        by_cases ho : Cursor.offset d = s
        · rw [if_pos ho] at h ⊢
          exact choiceFrom_le hnm h
        · rw [if_neg ho] at h ⊢
          exact h
      · exact h

section

variable {s : Nat} {causes : List ParseError} {r : Reply σ α}

theorem chooses_ok {v : α} (hp : p.Returns c ⟨.ok v, d⟩) :
    Chooses label s (p :: ps) causes c ⟨.ok v, d⟩ := by
  obtain ⟨n, hn⟩ := hp
  exact ⟨n, by simp [Parser.choiceFrom, hn]⟩

theorem chooses_committed (hp : p.Returns c ⟨.error e, d⟩) (ho : Cursor.offset d ≠ s) :
    Chooses label s (p :: ps) causes c
      ⟨.error (.expected label s (e :: causes).reverse), d⟩ := by
  obtain ⟨n, hn⟩ := hp
  exact ⟨n, by simp [Parser.choiceFrom, hn, ho]⟩

theorem chooses_declined (hp : p.Returns c ⟨.error e, d⟩) (ho : Cursor.offset d = s)
    (h : Chooses label s ps (e :: causes) d r) : Chooses label s (p :: ps) causes c r := by
  obtain ⟨n, hn⟩ := hp
  obtain ⟨m, hm⟩ := h
  refine ⟨max n m, ?_⟩
  rw [List.map_cons, Parser.choiceFrom_cons, Grammar.parser_le (Nat.le_max_left n m) hn]
  dsimp only
  rw [if_pos ho]
  exact choiceFrom_le (Nat.le_max_right n m) hm

/-- There is no other way for a choice to come to something. -/
theorem of_chooses (h : Chooses label s (p :: ps) causes c r) :
    (∃ v, p.Returns c ⟨.ok v, r.cursor⟩ ∧ r.result = .ok v) ∨
    (∃ e, p.Returns c ⟨.error e, r.cursor⟩ ∧ Cursor.offset r.cursor ≠ s ∧
      r.result = .error (.expected label s (e :: causes).reverse)) ∨
    ∃ e d, p.Returns c ⟨.error e, d⟩ ∧ Cursor.offset d = s ∧
      Chooses label s ps (e :: causes) d r := by
  obtain ⟨n, hn⟩ := h
  rw [List.map_cons, Parser.choiceFrom_cons] at hn
  cases hp : (p.parser n : Parser σ α) c with
  | none => simp [hp] at hn
  | some r' =>
    rw [hp] at hn
    obtain ⟨e | v, d⟩ := r'
    · dsimp only at hn
      by_cases ho : Cursor.offset d = s
      · rw [if_pos ho] at hn
        exact .inr (.inr ⟨e, d, ⟨n, hp⟩, ho, n, hn⟩)
      · rw [if_neg ho] at hn
        cases hn
        exact .inr (.inl ⟨e, ⟨n, hp⟩, ho, rfl⟩)
    · cases hn
      exact .inl ⟨v, ⟨n, hp⟩, rfl⟩

end

/-- From any cursor that is like the one where the choice began, the rest of it comes to what
settles it there: by induction on the alternatives that are left. -/
theorem Steady.chooses_iff (hs : Steady S seen start) :
    ∀ {ps : List (Grammar ε S [] α)} {causes : List ParseError} {c' : σ},
      Reachable S start c' → Alike S seen c' c →
      ((∃ d, Chooses label (Cursor.offset c) ps causes c' ⟨result, d⟩ ∧ seen d = final) ↔
        ∃ d, Settled label c causes.reverse ps result d ∧ seen d = final)
  | [], causes, c', _, ha => by
    constructor
    · rintro ⟨d, ⟨n, hn⟩, hf⟩
      cases hn
      exact ⟨c, settled_nil_iff.2 ⟨rfl, rfl⟩, ha.seen_eq.symm.trans hf⟩
    · rintro ⟨d, h, hf⟩
      obtain ⟨rfl, rfl⟩ := settled_nil_iff.1 h
      exact ⟨c', ⟨0, rfl⟩, ha.seen_eq.trans hf⟩
  | p :: ps, causes, c', hc', ha => by
    have ho : Cursor.offset c' = Cursor.offset c := hs.offset ha.seen_eq
    constructor
    · rintro ⟨d, h, hf⟩
      obtain ⟨v, hp, rfl⟩ | ⟨e, hp, hne, rfl⟩ | ⟨e, b, hp, hb, h⟩ := of_chooses h
      · obtain ⟨x, hx, hl⟩ := ha.returns hp
        exact ⟨x, settled_cons_iff.2 (.inl ⟨v, rfl, hx⟩), hl.trans hf⟩
      · obtain ⟨x, hx, hl⟩ := ha.returns hp
        rw [← hs.offset hl] at hne
        exact ⟨x, settled_cons_iff.2 (.inr (.inl ⟨e, by simp, hx, hne⟩)), hl.trans hf⟩
      · obtain ⟨x, hx, hl⟩ := ha.returns hp
        have hback : Alike S seen b c' := hs.alike hc' hp (hb.trans ho.symm)
        obtain ⟨y, hy, hf'⟩ := (hs.chooses_iff (hc'.run hp) (hback.trans ha)).1 ⟨d, h, hf⟩
        rw [List.reverse_cons] at hy
        exact ⟨y, settled_cons_iff.2 (.inr (.inr ⟨e, ⟨x, hx, (hs.offset hl).trans hb⟩, hy⟩)), hf'⟩
    · rintro ⟨d, h, hf⟩
      obtain ⟨v, rfl, hp⟩ | ⟨e, rfl, hp, hne⟩ | ⟨e, ⟨b, hp, hb⟩, h⟩ := settled_cons_iff.1 h
      · obtain ⟨x, hx, hl⟩ := ha.symm.returns hp
        exact ⟨x, chooses_ok hx, hl.trans hf⟩
      · obtain ⟨x, hx, hl⟩ := ha.symm.returns hp
        rw [← hs.offset hl] at hne
        rw [← List.reverse_cons]
        exact ⟨x, chooses_committed hx hne, hl.trans hf⟩
      · obtain ⟨x, hx, hl⟩ := ha.symm.returns hp
        have hx' : Cursor.offset x = Cursor.offset c := (hs.offset hl).trans hb
        have hback : Alike S seen x c' := hs.alike hc' hx (hx'.trans ho.symm)
        rw [← List.reverse_cons] at h
        obtain ⟨y, hy, hf'⟩ := (hs.chooses_iff (hc'.run hx) (hback.trans ha)).2 ⟨d, h, hf⟩
        exact ⟨y, chooses_declined hx hx' hy, hf'⟩

theorem Steady.choice_iff (hs : Steady S seen start) (hc : Reachable S start c) :
    Outcome seen (.choice label (.family ps)) c result final ↔
      ∃ d, Settled label c [] ps result d ∧ seen d = final := by
  have h : Outcome seen (.choice label (.family ps)) c result final ↔
      ∃ d, Chooses label (Cursor.offset c) ps [] c ⟨result, d⟩ ∧ seen d = final := by
    unfold Outcome Grammar.Returns Chooses
    simp only [Grammar.parser_choice]
    rfl
  exact h.trans (hs.chooses_iff hc (Alike.refl c))

/-! ## How alternatives end -/

/-- The endings of two alternatives: those of the first, and where it fails and leaves things as
they were (`still`), those of the second. -/
def orElse (still : V) (A B : Option α → V → Prop) (v : Option α) (final : V) : Prop :=
  (A v final ∧ ¬ (v = none ∧ final = still)) ∨ (A none still ∧ B v final)

omit [Cursor σ ε] [Element ε] in
theorem orElse_assoc (still : V) (A B C : Option α → V → Prop) :
    orElse still (orElse still A B) C = orElse still A (orElse still B C) := by
  funext v final
  have hfirst : orElse still A B none still ↔ A none still ∧ B none still := by
    simp [orElse]
  refine propext ⟨?_, ?_⟩
  · rintro (⟨⟨hA, -⟩ | ⟨hA, hB⟩, hn⟩ | ⟨hAB, hC⟩)
    · exact .inl ⟨hA, hn⟩
    · exact .inr ⟨hA, .inl ⟨hB, hn⟩⟩
    · exact .inr ⟨(hfirst.1 hAB).1, .inr ⟨(hfirst.1 hAB).2, hC⟩⟩
  · rintro (⟨hA, hn⟩ | ⟨hA, ⟨hB, hn⟩ | ⟨hB, hC⟩⟩)
    · exact .inl ⟨.inl ⟨hA, hn⟩, hn⟩
    · exact .inl ⟨.inr ⟨hA, hB⟩, hn⟩
    · exact .inr ⟨hfirst.2 ⟨hA, hB⟩, hC⟩

/-- When no alternative is left things stay as they are. -/
theorem orElse_still (still : V) (A : Option α → V → Prop) :
    orElse still A (fun v final => v = none ∧ final = still) = A := by
  funext v final
  refine propext ⟨?_, fun h => ?_⟩
  · rintro (⟨h, -⟩ | ⟨h, rfl, rfl⟩) <;> exact h
  · by_cases hn : v = none ∧ final = still
    · obtain ⟨rfl, rfl⟩ := hn
      exact .inr ⟨h, rfl, rfl⟩
    · exact .inl ⟨h, hn⟩

theorem or_kept {r : Reply σ α} (hp : p.Returns c r) (hd : ∀ e, ¬ Declines c p e) :
    (Grammar.or p q).Returns c r := by
  obtain ⟨n, hn⟩ := hp
  refine ⟨n, ?_⟩
  show (p.parser n : Parser σ α).or (q.parser n) c = some r
  unfold Parser.or
  rw [hn]
  obtain ⟨e | v, d⟩ := r
  · exact if_neg fun ho => hd e ⟨d, ⟨n, hn⟩, ho⟩
  · rfl

theorem or_declined {r : Reply σ α} (hp : p.Returns c ⟨.error e, d⟩)
    (ho : Cursor.offset d = Cursor.offset c) (hq : q.Returns d r) :
    ∃ result, (Grammar.or p q).Returns c ⟨result, r.cursor⟩ ∧
      result.toOption = r.result.toOption := by
  obtain ⟨n, hn⟩ := hp
  obtain ⟨m, hm⟩ := hq
  have hn := Grammar.parser_le (Nat.le_max_left n m) hn
  have hm := Grammar.parser_le (Nat.le_max_right n m) hm
  have hor : ((Grammar.or p q).parser (max n m) : Parser σ α) c =
      (p.parser (max n m) : Parser σ α).or (q.parser (max n m)) c := rfl
  unfold Parser.or at hor
  rw [hn] at hor
  dsimp only at hor
  rw [if_pos ho, hm] at hor
  obtain ⟨f | v, x⟩ := r
  · dsimp only at hor
    by_cases hx : Cursor.offset x = Cursor.offset c
    · rw [if_pos hx] at hor
      exact ⟨_, ⟨_, hor⟩, rfl⟩
    · rw [if_neg hx] at hor
      exact ⟨_, ⟨_, hor⟩, rfl⟩
  · exact ⟨_, ⟨_, hor⟩, rfl⟩

/-- If both alternatives together come to something, so does the first, and where it declines the
second. -/
theorem of_or {r : Reply σ α} (h : (Grammar.or p q).Returns c r) :
    ∃ r', p.Returns c r' ∧ ∀ e, r'.result = .error e →
      Cursor.offset r'.cursor = Cursor.offset c → ∃ r'', q.Returns r'.cursor r'' := by
  obtain ⟨n, hn⟩ := h
  have hor : (p.parser n : Parser σ α).or (q.parser n) c = some r := hn
  unfold Parser.or at hor
  cases hp : (p.parser n : Parser σ α) c with
  | none => simp [hp] at hor
  | some r' =>
    refine ⟨r', ⟨n, hp⟩, fun e he ho => ?_⟩
    obtain ⟨_, x⟩ := r'
    subst he
    rw [hp] at hor
    dsimp only at hor ho
    rw [if_pos ho] at hor
    cases hq : (q.parser n : Parser σ α) x with
    | none => simp [hq] at hor
    | some r'' => exact ⟨r'', n, hq⟩

theorem Steady.ends_or (hs : Steady S seen start) (hc : Reachable S start c) :
    Ends seen (.or p q) c = orElse (seen c) (Ends seen p c) (Ends seen q c) := by
  funext v final
  refine propext ⟨fun h => ?_, ?_⟩
  · obtain ⟨r, hr, hv, hf⟩ := ends_iff_returns.1 h
    obtain ⟨r', hp, hq⟩ := of_or hr
    by_cases hd : ∃ e, Declines c p e
    · obtain ⟨e, b, hb, ho⟩ := hd
      cases hp.unique hb
      obtain ⟨r'', hr''⟩ := hq e rfl ho
      obtain ⟨result, hor, hres⟩ := or_declined hb ho hr''
      cases hr.unique hor
      obtain ⟨x, hx, hl⟩ := (hs.alike hc hb ho).returns hr''
      refine .inr ⟨hs.declines_iff hc |>.1 ⟨e, b, hb, ho⟩, ends_iff_returns.2 ?_⟩
      exact ⟨_, hx, hres.symm.trans hv, hl.trans hf⟩
    · have hn := mt (hs.declines_iff hc).2 hd
      cases hr.unique (or_kept hp fun e he => hd ⟨e, he⟩)
      refine .inl ⟨ends_iff_returns.2 ⟨r, hp, hv, hf⟩, ?_⟩
      rintro ⟨rfl, rfl⟩
      exact hn (ends_iff_returns.2 ⟨r, hp, hv, hf⟩)
  · rintro (⟨hp, hn⟩ | ⟨hp, hq⟩)
    · obtain ⟨r, hr, hv, hf⟩ := ends_iff_returns.1 hp
      refine ends_iff_returns.2 ⟨r, or_kept hr fun e he => ?_, hv, hf⟩
      obtain ⟨d, hd, ho⟩ := he
      cases hr.unique hd
      exact hn ⟨hv.symm, hf.symm.trans (hs.alike hc hd ho).seen_eq⟩
    · obtain ⟨e, b, hb, ho⟩ := (hs.declines_iff hc).2 hp
      obtain ⟨r, hr, hv, hf⟩ := ends_iff_returns.1 hq
      obtain ⟨x, hx, hl⟩ := (hs.alike hc hb ho).symm.returns hr
      obtain ⟨result, hor, hres⟩ := or_declined hb ho hx
      exact ends_iff_returns.2 ⟨_, hor, hres.trans hv, hl.trans hf⟩

theorem Steady.ends_choice_nil (hs : Steady S seen start) (hc : Reachable S start c) :
    Ends seen (.choice label (.family ([] : List (Grammar ε S [] α)))) c =
      fun v final => v = none ∧ final = seen c := by
  funext v final
  unfold Ends
  simp only [hs.choice_iff hc, settled_nil_iff]
  refine propext ⟨?_, ?_⟩
  · rintro ⟨_, ⟨d, ⟨rfl, rfl⟩, rfl⟩, rfl⟩
    exact ⟨rfl, rfl⟩
  · rintro ⟨rfl, rfl⟩
    exact ⟨_, ⟨c, ⟨rfl, rfl⟩, rfl⟩, rfl⟩

/-- A choice ends as its first alternative and a choice among the others would with `or`. -/
theorem Steady.ends_choice_cons (hs : Steady S seen start) (hc : Reachable S start c) :
    Ends seen (.choice label (.family (p :: ps))) c =
      orElse (seen c) (Ends seen p c) (Ends seen (.choice label (.family ps)) c) := by
  funext v final
  refine propext ⟨?_, ?_⟩
  · rintro ⟨result, hout, rfl⟩
    obtain ⟨d, hset, rfl⟩ := (hs.choice_iff hc).1 hout
    obtain ⟨v, rfl, hp⟩ | ⟨e, rfl, hp, hne⟩ | ⟨e, he, h⟩ := settled_cons_iff.1 hset
    · exact .inl ⟨ends_iff_returns.2 ⟨_, hp, rfl, rfl⟩, by simp [Except.toOption]⟩
    · exact .inl ⟨ends_iff_returns.2 ⟨_, hp, rfl, rfl⟩, fun hn => hne (hs.offset hn.2)⟩
    · obtain ⟨result', h', hv⟩ := h.forget []
      refine .inr ⟨(hs.declines_iff hc).1 ⟨e, he⟩, result', ?_, hv⟩
      exact (hs.choice_iff hc).2 ⟨d, h', rfl⟩
  · rintro (⟨hp, hn⟩ | ⟨hp, hq⟩)
    · obtain ⟨⟨result, d⟩, hr, rfl, rfl⟩ := ends_iff_returns.1 hp
      cases result with
      | ok v =>
        refine ⟨_, (hs.choice_iff hc).2 ⟨d, settled_cons_iff.2 (.inl ⟨v, rfl, hr⟩), rfl⟩, rfl⟩
      | error e =>
        have hne : Cursor.offset d ≠ Cursor.offset c :=
          fun ho => hn ⟨rfl, (hs.alike hc hr ho).seen_eq⟩
        exact ⟨_, (hs.choice_iff hc).2
          ⟨d, settled_cons_iff.2 (.inr (.inl ⟨e, rfl, hr, hne⟩)), rfl⟩, rfl⟩
    · obtain ⟨e, he⟩ := (hs.declines_iff hc).2 hp
      obtain ⟨result, hq, rfl⟩ := hq
      obtain ⟨d, h, rfl⟩ := (hs.choice_iff hc).1 hq
      obtain ⟨result', h', hv⟩ := h.forget [e]
      exact ⟨result', (hs.choice_iff hc).2
        ⟨d, settled_cons_iff.2 (.inr (.inr ⟨e, he, h'⟩)), rfl⟩, hv⟩

/-- Alternatives before a choice may be put into it: by induction on their nesting, where `or` only
moves the brackets. -/
theorem Steady.ends_nested (hs : Steady S seen start) (hc : Reachable S start c) (label : String) :
    ∀ (t : Nesting ε S α) (ps : List (Grammar ε S [] α)),
      orElse (seen c) (Ends seen t.grammar c) (Ends seen (.choice label (.family ps)) c) =
        Ends seen (.choice label (.family (t.leaves ++ ps))) c
  | .leaf p, ps => (hs.ends_choice_cons hc).symm
  | .or l r, ps => by
    calc orElse (seen c) (Ends seen (.or l.grammar r.grammar) c)
          (Ends seen (.choice label (.family ps)) c)
        = orElse (seen c) (Ends seen l.grammar c)
            (orElse (seen c) (Ends seen r.grammar c)
              (Ends seen (.choice label (.family ps)) c)) := by
          rw [hs.ends_or hc, orElse_assoc]
      _ = Ends seen (.choice label (.family (l.leaves ++ (r.leaves ++ ps)))) c := by
          rw [hs.ends_nested hc label r, hs.ends_nested hc label l]
      _ = Ends seen (.choice label (.family ((l.leaves ++ r.leaves) ++ ps))) c := by
          rw [List.append_assoc]

theorem Steady.commits (hs : Steady S seen start) (hc : Reachable S start c) :
    Commits S seen c where
  choice _ _ _ _ := hs.choice_iff hc
  later {α} label before es p r after after' hes hp hd result final := by
    -- the two choices have one outcome, and an outcome is the only one
    have hboth : ∀ after : List (Grammar ε S [] α), ∃ result,
        Settled label c [] (before ++ p :: after) result r.cursor ∧
        result = (r.result.mapError fun e => .expected label (Cursor.offset c) (es ++ [e])) := by
      intro after
      obtain ⟨e | v, d⟩ := r
      · exact ⟨_, .committed hes hp fun ho => hd e ⟨d, hp, ho⟩, rfl⟩
      · exact ⟨_, .chosen hes hp, rfl⟩
    have hone : ∀ after : List (Grammar ε S [] α),
        Outcome seen (.choice label (.family (before ++ p :: after))) c result final ↔
          (r.result.mapError fun e => .expected label (Cursor.offset c) (es ++ [e])) = result ∧
            seen r.cursor = final := by
      intro after
      obtain ⟨_, hset, rfl⟩ := hboth after
      obtain ⟨d, hd, hl⟩ := (hs.choice_iff hc).2 ⟨_, hset, rfl⟩
      constructor
      · rintro ⟨d', hd', hf⟩
        cases hd.unique hd'
        exact ⟨rfl, hl.symm.trans hf⟩
      · rintro ⟨rfl, rfl⟩
        exact ⟨d, hd, hl⟩
    exact (hone after).trans (hone after').symm
  nested label t v final := by
    have h := hs.ends_nested hc label t []
    rw [hs.ends_choice_nil hc, orElse_still, List.append_nil] at h
    rw [h]

end

/-! ## Texts and fused sources -/

/-- Going over characters that take up no bytes is staying. -/
theorem TextCursor.advance_of_offset {c : TextCursor} {k : Nat}
    (h : (c.advance k).offset = c.offset) : c.advance k = c := by
  have hw : Text.width (c.after.take k) = 0 := by
    simp only [advance] at h
    omega
  have hnone : c.after.take k = [] := Text.width_eq_zero.1 hw
  have hdrop : c.after.drop k = c.after := by
    have := List.take_append_drop k c.after
    rwa [hnone, List.nil_append] at this
  simp [advance, hnone, hdrop]

theorem TextCursor.steady_of {V : Type} {seen : TextCursor → V}
    (hseen : ∀ {c d}, seen c = seen d → c.offset = d.offset) (start : TextCursor) :
    Steady .text seen start where
  offset h := hseen h
  alike {α g c r} _ hr ho := by
    obtain ⟨k, hk⟩ := hr.ahead (K := course) prim_moves
    rw [hk] at ho ⊢
    rw [advance_of_offset ho]
    exact .refl c

theorem TextCursor.steady (text : List Char) :
    Steady .text (fun c : TextCursor => (c.offset, c.line)) (ofText text) :=
  steady_of (fun h => (Prod.mk.inj h).1) (ofText text)

section

variable {s ε : Type} [Source s ε] [Element ε]

theorem Buffered.steady_self {c : Buffered s ε} (h : Source.Fused c.source) :
    Steady .plain Buffered.pos c where
  offset h := h
  alike hd hr ho := by
    have hf := (holds_self h).reachable hd
    have hsame : Same c.element _ _ := ⟨ho.symm, holds_of_returns hf hr, hf⟩
    exact hsame.alike

theorem Buffered.steady {source : s} (hs : Source.Fused source) :
    Steady .plain Buffered.pos (ofSource source : Buffered s ε) :=
  steady_self hs

end

/-- From every cursor that can be reached on a text, and on a fused source, choices commit to the
first alternative that does not decline. -/
theorem choice_commits :
    (∀ (text : List Char) (c : TextCursor), Reachable .text (TextCursor.ofText text) c →
      Commits .text (fun c : TextCursor => (c.offset, c.line)) c) ∧
    (∀ {s ε : Type} [Source s ε] [Element ε] (source : s), Source.Fused source →
      ∀ c : Buffered s ε, Reachable .plain (Buffered.ofSource source) c →
        Commits .plain Buffered.pos c) :=
  ⟨fun text _ hc => (TextCursor.steady text).commits hc,
    fun _ hs _ hc => (Buffered.steady hs).commits hc⟩

/-- The second of three alternatives fails one character further on, and the third is not tried. On
a source the second one succeeds, also with `or` between the three. -/
theorem second_of_three :
    Reachable .text (TextCursor.ofText ['é', 'a']) (TextCursor.ofText ['é', 'a']) ∧
      Outcome (S := .text) (fun c : TextCursor => (c.offset, c.line))
        (.choice "letter" (.family ([.fail "first"] ++ .right .any (.fail "second") :: [.any])))
        (TextCursor.ofText ['é', 'a'])
        (.error (.expected "letter" 0 [.failure 0 "first", .failure 2 "second"]) :
          Except ParseError Char) (2, 1) ∧
      Source.Fused (Script.ofList [some (1 : Int), some 2]) ∧
      Ends Buffered.pos (.or (.or (.fail "first") .any) (.ret 0) : Grammar Int .plain [] Int)
        (Buffered.ofSource (Script.ofList [some (1 : Int), some 2]) : Buffered _ Int)
        (some 1) 1 := by
  have hf := (Script.yields [(1 : Int), 2]).fused
  have ht := choice_commits.1 ['é', 'a'] _ .start
  have hs := choice_commits.2 _ hf _ .start
  refine ⟨.start, ?_, hf, ?_⟩
  · refine (ht.choice "letter" _ _ _).2 ⟨⟨['é'], ['a'], 2, 1⟩, ?_, rfl⟩
    exact .committed (.cons ⟨_, ⟨0, rfl⟩, rfl⟩ .nil) ⟨0, rfl⟩ (by decide)
  · refine (hs.nested "" (.or (.or (.leaf (.fail "first")) (.leaf .any)) (.leaf (.ret 0))) _ _).2 ?_
    refine ⟨.ok 1, (hs.choice "" ([.fail "first"] ++ .any :: [.ret 0]) _ _).2 ?_, rfl⟩
    refine ⟨⟨⟨[some 2], 1⟩, #[1], 1⟩, ?_, rfl⟩
    exact .chosen (.cons ⟨_, ⟨0, rfl⟩, rfl⟩ .nil) ⟨0, rfl⟩

end Descent
