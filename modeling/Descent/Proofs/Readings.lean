import Descent.Proofs.Chains
import Descent.Proofs.Commitment
import Descent.Proofs.Excerpts
import Descent.Proofs.Tokens
import Descent.Proofs.Unfolding

/-!
# What a grammar reads

A run over text that succeeds is told by what lies ahead before and after it. Each combinator has a
lemma for each direction: what a success of the whole says of its parts (`…_ok_iff`), and which
successes of the parts make one of the whole (`TextGrammar.Reads`). A choice goes on to an
alternative when those before it fail where they began (`TextGrammar.Refuses`).
-/

namespace Descent

/-! ## Successes in terms of parts -/

section

variable {σ ε α β : Type} [Cursor σ ε] {P : Nat → Parser σ β} {F : β → Nat → Parser σ α} {c d : σ}
  {r : Reply σ α} {v : α}

theorem Fueled.andThen_ok_iff (hP : Fueled P) (hF : ∀ v, Fueled (F v)) :
    Comes (fun n => (P n).andThen fun v => F v n) c ⟨.ok v, d⟩ ↔
      ∃ u b, Comes P c ⟨.ok u, b⟩ ∧ Comes (F u) b ⟨.ok v, d⟩ := by
  constructor
  · rintro ⟨n, h⟩
    obtain ⟨e, b, -, hr⟩ | ⟨u, b, hp, hr⟩ := Parser.andThen_eq_some_iff.1 h
    · cases hr
    · exact ⟨u, b, ⟨n, hp⟩, n, hr⟩
  · rintro ⟨u, b, ⟨n, hp⟩, m, hr⟩
    refine ⟨max n m, Parser.andThen_eq_some_iff.2 (.inr ⟨u, b, ?_, ?_⟩)⟩
    · exact hP.le (Nat.le_max_left n m) hp
    · exact (hF u).le (Nat.le_max_right n m) hr

theorem comes_andThen_error {e : ParseError} (h : Comes P c ⟨.error e, d⟩) :
    Comes (fun n => (P n).andThen fun v => F v n) c (⟨.error e, d⟩ : Reply σ α) :=
  h.imp fun _ hn => Parser.andThen_eq_some_iff.2 (.inl ⟨e, d, hn, rfl⟩)

theorem comes_map_ok_iff {f : β → α} : Comes (fun n => (P n).map f) c ⟨.ok v, d⟩ ↔
    ∃ u, Comes P c ⟨.ok u, d⟩ ∧ f u = v := by
  constructor
  · rintro ⟨n, h⟩
    obtain ⟨u, hp, hu⟩ := Parser.map_eq_ok h
    exact ⟨u, ⟨n, hp⟩, hu⟩
  · rintro ⟨u, ⟨n, hp⟩, rfl⟩
    exact ⟨n, Parser.map_some hp⟩

end

namespace Grammar

variable {σ ε α β : Type} [Cursor σ ε] [Element ε] {S : Signature} [Interprets S σ] {c d : σ}
  {p : Grammar ε S [] α} {q : Grammar ε S [] β} {e : ParseError} {label : String}

theorem map_ok_iff {f : α → β} {v : β} : (map f p).Returns c ⟨.ok v, d⟩ ↔
    ∃ u, p.Returns c ⟨.ok u, d⟩ ∧ f u = v :=
  comes_map_ok_iff

theorem right_ok_iff {v : β} : (right p q).Returns c ⟨.ok v, d⟩ ↔
    ∃ u b, p.Returns c ⟨.ok u, b⟩ ∧ q.Returns b ⟨.ok v, d⟩ :=
  p.fueled.andThen_ok_iff fun _ => q.fueled

theorem left_ok_iff {v : α} : (left p q).Returns c ⟨.ok v, d⟩ ↔
    ∃ b u, p.Returns c ⟨.ok v, b⟩ ∧ q.Returns b ⟨.ok u, d⟩ := by
  refine (p.fueled.andThen_ok_iff fun v => q.fueled.map fun _ => v).trans ?_
  simp only [comes_map_ok_iff]
  constructor
  · rintro ⟨u, b, hp, w, hq, rfl⟩
    exact ⟨b, w, hp, hq⟩
  · rintro ⟨b, w, hp, hq⟩
    exact ⟨v, b, hp, w, hq, rfl⟩

theorem pair_returns_iff {r : Reply σ (α × β)} : (pair p q).Returns c r ↔
    Comes (fun n => (p.parser n : Parser σ α).pair (q.parser n)) c r := by
  unfold Returns Comes
  simp only [parser_pair]

theorem pair_ok_iff {v : α × β} : (pair p q).Returns c ⟨.ok v, d⟩ ↔
    ∃ b, p.Returns c ⟨.ok v.1, b⟩ ∧ q.Returns b ⟨.ok v.2, d⟩ := by
  rw [pair_returns_iff]
  refine (p.fueled.andThen_ok_iff fun x => q.fueled.map fun y => (x, y)).trans ?_
  simp only [comes_map_ok_iff]
  constructor
  · rintro ⟨x, b, hp, y, hq, rfl⟩
    exact ⟨b, hp, hq⟩
  · rintro ⟨b, hp, hq⟩
    exact ⟨v.1, b, hp, v.2, hq, rfl⟩

theorem named_ok_iff {v : α} :
    (named label p).Returns c ⟨.ok v, d⟩ ↔ p.Returns c ⟨.ok v, d⟩ := by
  refine exists_congr fun n => ?_
  show Parser.mapError _ (p.parser n) c = _ ↔ p.parser n c = _
  unfold Parser.mapError
  rcases p.parser n c with _ | ⟨_ | _, _⟩ <;> simp

theorem named_error (h : p.Returns c ⟨.error e, d⟩) :
    (named label p).Returns c ⟨.error (.named label e), d⟩ := by
  obtain ⟨n, hn⟩ := h
  refine ⟨n, ?_⟩
  show Parser.mapError _ (p.parser n) c = _
  unfold Parser.mapError
  rw [hn]

/-- A chain loops over pairs of an operator and an operand. -/
theorem chainStep_eq {op : Grammar ε S [] (α → α → α)} :
    ChainStep p op = ((pair op p).Returns : σ → Reply σ _ → Prop) := by
  rw [← comes_pair]
  exact funext fun c => funext fun r => propext pair_returns_iff.symm

/-- Without a first value there are none, and otherwise a loop over separators with a value after
each. -/
theorem sepBy_ok_iff {vs : List α} : (sepBy q p).Returns c ⟨.ok vs, d⟩ ↔
    (∃ e x, p.Returns c ⟨.error e, x⟩ ∧ vs = [] ∧ d = Cursor.restore x c) ∨
      ∃ v us b, p.Returns c ⟨.ok v, b⟩ ∧ Loop (right q p).Returns b us d ∧ vs = v :: us := by
  constructor
  · rintro ⟨n, h⟩
    have h : Parser.sepBy n (q.parser n) (p.parser n) c = some ⟨.ok vs, d⟩ := h
    match hp : (p.parser n : Parser σ α) c with
    | none => simp [Parser.sepBy, hp] at h
    | some ⟨.error e, x⟩ =>
      rw [Parser.sepBy_error hp] at h
      cases h
      exact .inl ⟨e, x, ⟨n, hp⟩, rfl, rfl⟩
    | some ⟨.ok v, b⟩ =>
      rw [Parser.sepBy_ok hp, Parser.sepFrom_eq_manyFrom] at h
      obtain ⟨us, d', hl, hr⟩ :=
        loop_of_manyFrom (P := fun n => ((right q p).parser n : Parser σ α)) h
      cases hr
      exact .inr ⟨v, us, b, ⟨n, hp⟩, hl, rfl⟩
  · rintro (⟨e, x, ⟨n, hn⟩, rfl, rfl⟩ | ⟨v, us, b, ⟨n, hn⟩, hl, rfl⟩)
    · exact ⟨n, Parser.sepBy_error hn⟩
    · obtain ⟨m, hm⟩ := hl.manyFrom (right q p).fueled
      have hle := Nat.le_max_right n m
      refine ⟨max n m, (Parser.sepBy_ok (Grammar.parser_le (Nat.le_max_left n m) hn)).trans ?_⟩
      rw [Parser.sepFrom_eq_manyFrom]
      exact hm _ hle _ hle [v]

/-- A definition that comes to the same as `q`, with itself for its references. -/
theorem fix_returns_iff {cell : Nat} {body : Grammar ε S [α] α}
    (hv : ∀ c : σ, Cursor.visit cell c = c)
    (h : ∀ n, (run n body (Env.cons (run n (.fix cell body) Env.nil) Env.nil) : Parser σ α) =
      p.parser n) {r : Reply σ α} : (fix cell body).Returns c r ↔ p.Returns c r := by
  constructor
  · rintro ⟨n, hn⟩
    have hr := of_run_fix cell body hn
    rw [hv, h] at hr
    exact ⟨n, hr⟩
  · rintro ⟨n, hn⟩
    refine ⟨n + 1, run_fix_succ cell body ?_⟩
    rw [hv, h]
    exact hn

/-! ## Choices -/

theorem choice_returns_iff {n : Nat} {ps : Fin n → Grammar ε S [] α} {r : Reply σ α} :
    (choice label ps).Returns c r ↔ Chooses label (Cursor.offset c) (List.ofFn ps) [] c r := by
  refine exists_congr fun k => ?_
  rw [List.map_ofFn]
  rfl

end Grammar

namespace TextGrammar

open Regex

variable {α β : Type} {c d : TextCursor} {p : TextGrammar [] α} {q : TextGrammar [] β}
  {e : ParseError} {label : String} {t t' u : List Char} {v : α}

theorem ahead_of_returns {r : Reply TextCursor α} (h : p.Returns c r) :
    ∃ k, r.cursor = c.advance k :=
  h.ahead (K := TextCursor.course) TextCursor.prim_moves

/-- A success does not leave more ahead than there was. -/
theorem length_after_le (h : p.Returns c ⟨.ok v, d⟩) : d.after.length ≤ c.after.length := by
  obtain ⟨k, rfl⟩ := ahead_of_returns h
  exact TextCursor.length_advance_le c k

/-- A choice that succeeds does so by one of its alternatives, from where it began. -/
theorem of_choice_ok {n : Nat} {ps : Fin n → TextGrammar [] α}
    (h : (Grammar.choice label ps).Returns c ⟨.ok v, d⟩) : ∃ i, (ps i).Returns c ⟨.ok v, d⟩ := by
  have hlist : ∀ {ps : List (TextGrammar [] α)} {causes : List ParseError},
      Chooses label c.offset ps causes c ⟨.ok v, d⟩ → ∃ p ∈ ps, p.Returns c ⟨.ok v, d⟩ := by
    intro ps
    induction ps with
    | nil =>
      rintro causes ⟨n, hn⟩
      cases hn
    | cons p ps ih =>
      intro causes hc
      obtain ⟨w, hp, hw⟩ | ⟨e, -, -, he⟩ | ⟨e, b, hp, hb, hrest⟩ := of_chooses hc
      · cases hw
        exact ⟨p, by simp, hp⟩
      · cases he
      · obtain ⟨k, rfl⟩ := ahead_of_returns hp
        rw [TextCursor.advance_of_offset hb] at hrest
        obtain ⟨q, hq, hr⟩ := ih hrest
        exact ⟨q, by simp [hq], hr⟩
  obtain ⟨q, hq, hr⟩ := hlist (Grammar.choice_returns_iff.1 h)
  obtain ⟨i, rfl⟩ := List.mem_ofFn.1 hq
  exact ⟨i, hr⟩

/-! ## Readings -/

/-- With `t` ahead, the grammar succeeds with `v` and leaves `t'` ahead. -/
def Reads (p : TextGrammar [] α) (t : List Char) (v : α) (t' : List Char) : Prop :=
  ∀ ⦃c : TextCursor⦄, c.after = t → ∃ d, p.Returns c ⟨.ok v, d⟩ ∧ d.after = t'

/-- With `t` ahead, the grammar fails where it began. -/
def Refuses (p : TextGrammar [] α) (t : List Char) : Prop :=
  ∀ ⦃c : TextCursor⦄, c.after = t → ∃ e, p.Returns c ⟨.error e, c⟩

theorem Reads.length_le (h : Reads p t v t') : t'.length ≤ t.length := by
  obtain ⟨d, hr, rfl⟩ := h (c := .ofText t) rfl
  exact length_after_le hr

theorem Reads.map {f : α → β} (h : Reads p t v t') : Reads (.map f p) t (f v) t' := by
  intro c hc
  obtain ⟨d, hp, hd⟩ := h hc
  exact ⟨d, Grammar.map_ok_iff.2 ⟨v, hp, rfl⟩, hd⟩

theorem Reads.named (h : Reads p t v t') : Reads (.named label p) t v t' := by
  intro c hc
  obtain ⟨d, hp, hd⟩ := h hc
  exact ⟨d, Grammar.named_ok_iff.2 hp, hd⟩

theorem Reads.right {w : β} (hp : Reads p t v u) (hq : Reads q u w t') :
    Reads (.right p q) t w t' := by
  intro c hc
  obtain ⟨b, hp, hb⟩ := hp hc
  obtain ⟨d, hq, hd⟩ := hq hb
  exact ⟨d, Grammar.right_ok_iff.2 ⟨v, b, hp, hq⟩, hd⟩

theorem Reads.left {w : β} (hp : Reads p t v u) (hq : Reads q u w t') :
    Reads (.left p q) t v t' := by
  intro c hc
  obtain ⟨b, hp, hb⟩ := hp hc
  obtain ⟨d, hq, hd⟩ := hq hb
  exact ⟨d, Grammar.left_ok_iff.2 ⟨b, w, hp, hq⟩, hd⟩

theorem Reads.pair {w : β} (hp : Reads p t v u) (hq : Reads q u w t') :
    Reads (.pair p q) t (v, w) t' := by
  intro c hc
  obtain ⟨b, hp, hb⟩ := hp hc
  obtain ⟨d, hq, hd⟩ := hq hb
  exact ⟨d, Grammar.pair_ok_iff.2 ⟨b, hp, hq⟩, hd⟩

theorem Refuses.map {f : α → β} (h : Refuses p t) : Refuses (.map f p) t := by
  intro c hc
  obtain ⟨e, he⟩ := h hc
  exact ⟨e, comes_andThen_error he⟩

theorem Refuses.named (h : Refuses p t) : Refuses (.named label p) t := by
  intro c hc
  obtain ⟨e, he⟩ := h hc
  exact ⟨_, Grammar.named_error he⟩

theorem Refuses.right (h : Refuses p t) : Refuses (.right p q) t := by
  intro c hc
  obtain ⟨e, he⟩ := h hc
  exact ⟨e, comes_andThen_error he⟩

theorem Refuses.left (h : Refuses p t) : Refuses (.left p q) t := by
  intro c hc
  obtain ⟨e, he⟩ := h hc
  exact ⟨e, comes_andThen_error he⟩

theorem Refuses.pair (h : Refuses p t) : Refuses (.pair p q) t := by
  intro c hc
  obtain ⟨e, he⟩ := h hc
  exact ⟨e, Grammar.pair_returns_iff.2 (comes_andThen_error he)⟩

/-! ## Alternatives -/

theorem chooses_of_refuses :
    ∀ {n : Nat} {ps : Fin n → TextGrammar [] α} {causes : List ParseError} (i : Fin n),
      (∀ j < i, Refuses (ps j) c.after) → (ps i).Returns c ⟨.ok v, d⟩ →
      Chooses label c.offset (List.ofFn ps) causes c ⟨.ok v, d⟩ := by
  intro n
  induction n with
  | zero => exact fun i => i.elim0
  | succ n ih =>
    intro ps causes i hb hi
    rw [List.ofFn_succ]
    cases i using Fin.cases with
    | zero => exact chooses_ok hi
    | succ i =>
      obtain ⟨e, he⟩ := hb 0 (Fin.succ_pos i) rfl
      refine chooses_declined he rfl (ih i (fun j hj => ?_) hi)
      exact hb j.succ (Fin.succ_lt_succ_iff.2 hj)

theorem Reads.choice {n : Nat} {ps : Fin n → TextGrammar [] α} (i : Fin n)
    (hb : ∀ j < i, Refuses (ps j) t) (hi : Reads (ps i) t v t') :
    Reads (.choice label ps) t v t' := by
  rintro c rfl
  obtain ⟨d, hp, hd⟩ := hi rfl
  exact ⟨d, Grammar.choice_returns_iff.2 (chooses_of_refuses i hb hp), hd⟩

theorem Refuses.choice {n : Nat} {ps : Fin n → TextGrammar [] α} (h : ∀ i, Refuses (ps i) t) :
    Refuses (.choice label ps) t := by
  rintro c rfl
  have hlist : ∀ (ps : List (TextGrammar [] α)) (causes : List ParseError),
      (∀ p ∈ ps, Refuses p c.after) → ∃ e, Chooses label c.offset ps causes c ⟨.error e, c⟩ := by
    intro ps
    induction ps with
    | nil => exact fun causes _ => ⟨_, 0, rfl⟩
    | cons p ps ih =>
      intro causes hps
      obtain ⟨hp, hps⟩ := List.forall_mem_cons.1 hps
      obtain ⟨e, he⟩ := hp rfl
      obtain ⟨f, hf⟩ := ih (e :: causes) hps
      exact ⟨f, chooses_declined he rfl hf⟩
  obtain ⟨e, he⟩ := hlist (List.ofFn ps) [] fun p hp => by
    obtain ⟨i, rfl⟩ := List.mem_ofFn.1 hp
    exact h i
  exact ⟨e, Grammar.choice_returns_iff.2 he⟩

/-! ## Fixed texts and patterns -/

theorem after_advance_append {w : List Char} (h : c.after = w ++ t) :
    (c.advance w.length).after = t := by
  simp [TextCursor.advance, h]

theorem of_string_ok {s v : String} (h : (string s).Returns c ⟨.ok v, d⟩) :
    c.after = s.toList ++ d.after := by
  obtain ⟨n, hn⟩ := h
  have hn : Parser.string s c = some ⟨.ok v, d⟩ := hn
  unfold Parser.string at hn
  split at hn
  · next hp =>
    obtain ⟨rest, hrest⟩ := List.isPrefixOf_iff_prefix.1 hp
    cases hn
    rw [after_advance_append hrest.symm, hrest]
  · cases hn

theorem reads_string (s : String) (t : List Char) : Reads (string s) (s.toList ++ t) s t :=
  fun _ hc => ⟨_, ⟨0, if_pos (List.isPrefixOf_iff_prefix.2 ⟨t, hc.symm⟩)⟩, after_advance_append hc⟩

theorem refuses_string {s : String} (h : ¬ s.toList <+: t) : Refuses (string s) t := by
  rintro c rfl
  exact ⟨_, 0, if_neg fun hp => h (List.isPrefixOf_iff_prefix.1 hp)⟩

theorem of_char_ok {x y : Char} (h : (char x).Returns c ⟨.ok y, d⟩) : c.after = x :: d.after := by
  obtain ⟨n, hn⟩ := h
  by_cases hp : [x] <+: c.after
  · obtain ⟨rest, hc⟩ := hp
    cases hn.symm.trans (char_ok hc.symm n)
    rw [TextCursor.after_advance_one hc.symm, ← hc]
    rfl
  · cases hn.symm.trans (char_error hp n)

theorem reads_char (x : Char) (t : List Char) : Reads (char x) (x :: t) x t :=
  fun _ hc => ⟨_, ⟨0, char_ok hc 0⟩, TextCursor.after_advance_one hc⟩

theorem refuses_char {x : Char} (h : ¬ [x] <+: t) : Refuses (char x) t := by
  rintro c rfl
  exact ⟨_, 0, char_error h 0⟩

section

variable {source s : String} {find : Finder} {pat : Pattern} {first more : CharSet} {w : List Char}

theorem regex_some (source : String) {k : Nat} (h : find c.after = some ⟨0, k⟩) :
    Parser.regex source find c = some ⟨.ok (String.ofList (c.after.take k)), c.advance k⟩ := by
  unfold Parser.regex
  rw [h]
  rfl

theorem regex_none (source : String) (h : find c.after = none) :
    ∃ e, Parser.regex source find c = some ⟨.error e, c⟩ := by
  unfold Parser.regex
  rw [h]
  exact ⟨_, rfl⟩

/-- What a pattern matches is the longest text here that it describes. -/
theorem Lexical.of_ok (h : Lexical pat first more)
    (hr : (regex source pat.ways.atStart.first).Returns c ⟨.ok s, d⟩) :
    ∃ w, pat.Matches w ∧ s = String.ofList w ∧ c.after = w ++ d.after := by
  obtain ⟨n, hn⟩ := hr
  have hn : Parser.regex source pat.ways.atStart.first c = some ⟨.ok s, d⟩ := hn
  obtain ⟨w, hw, hf⟩ | ⟨-, hf⟩ := h.charted.first_longest c.after
  · obtain ⟨rest, hrest⟩ := hw.isPrefix
    cases hn.symm.trans (regex_some source hf)
    rw [after_advance_append hrest.symm, ← hrest, List.take_left]
    exact ⟨w, hw.mem, rfl, rfl⟩
  · obtain ⟨e, he⟩ := regex_none source hf
    cases hn.symm.trans he

theorem Lexical.reads (h : Lexical pat first more) (hw : pat.Matches w) (ht : Avoids more t) :
    Reads (regex source pat.ways.atStart.first) (w ++ t) (String.ofList w) t := by
  intro c hc
  have hlong := h.longest hw ht
  rw [← hc] at hlong
  obtain ⟨v, hv, hf⟩ | ⟨hno, -⟩ := h.charted.first_longest c.after
  · obtain rfl : v = w := (hlong.longest hv.mem hv.isPrefix).eq_of_length_le
      (hv.longest hlong.mem hlong.isPrefix).length_le
    have hr := regex_some source hf
    rw [hc, List.take_left] at hr
    exact ⟨_, ⟨0, hr⟩, after_advance_append hc⟩
  · exact absurd hlong.mem (hno w hlong.isPrefix)

theorem Lexical.refuses (h : Lexical pat first more) (ht : Avoids first t) :
    Refuses (regex source pat.ways.atStart.first) t := by
  rintro c rfl
  obtain ⟨v, hv, -⟩ | ⟨-, hf⟩ := h.charted.first_longest c.after
  · exact absurd hv.mem (h.not_matches ht hv.isPrefix)
  · obtain ⟨e, he⟩ := regex_none source hf
    exact ⟨e, 0, he⟩

end

/-- A closed grammar consumes something, where it stands, if each of its successes leaves less
ahead. -/
theorem advances_of_shorter {Γ : List Type} {K : Enclosing Char .text Γ} {p : TextGrammar Γ α}
    (q : TextGrammar [] α)
    (hrun : ∀ n, (Grammar.run n p (K.env n) : Parser TextCursor α) = q.parser n)
    (h : ∀ {c d : TextCursor} {v : α}, q.Returns c ⟨.ok v, d⟩ →
      d.after.length < c.after.length) : p.Advances TextCursor K := by
  intro n c v d hr hoffset
  rw [hrun] at hr
  have hlt := h ⟨n, hr⟩
  obtain ⟨k, rfl⟩ : ∃ k, d = c.advance k := ahead_of_returns ⟨n, hr⟩
  rw [TextCursor.advance_of_offset hoffset] at hlt
  exact Nat.lt_irrefl _ hlt

/-! ## White space -/

theorem loop_space (c : TextCursor) : Loop (space : TextGrammar [] Char).Returns c
    (c.after.takeWhile Text.isBlank) (c.advance (c.after.takeWhile Text.isBlank).length) := by
  -- the name of a character is only seen in the failure that ends the loop
  have hnamed : ∀ {b d : TextCursor} {vs : List Char},
      Loop (satisfyChar Text.isBlank : TextGrammar [] Char).Returns b vs d →
        Loop (space : TextGrammar [] Char).Returns b vs d := by
    intro b d vs hl
    induction hl with
    | failed he => exact .failed (Grammar.named_error he)
    | idle hv ho => exact .idle (Grammar.named_ok_iff.2 hv) ho
    | round hv hne _ ih => exact .round (Grammar.named_ok_iff.2 hv) hne ih
  exact hnamed (loop_satisfyChar Text.isBlank rfl)

theorem skipMany_space (c : TextCursor) : (Grammar.skipMany space : TextGrammar [] Unit).Returns c
    ⟨.ok (), c.advance (c.after.takeWhile Text.isBlank).length⟩ := by
  obtain ⟨n, hn⟩ := Grammar.many_returns_iff.2 ⟨_, _, loop_space c, rfl⟩
  refine ⟨n, ?_⟩
  show (Grammar.parser n space : Parser TextCursor Char).skipMany n c = _
  rw [Parser.skipMany_eq_many]
  exact Parser.map_some hn

theorem after_skip (c : TextCursor) :
    (c.advance (c.after.takeWhile Text.isBlank).length).after = c.after.dropWhile Text.isBlank :=
  after_advance_append List.takeWhile_append_dropWhile.symm

theorem of_skip_ok {u : Unit} (h : (Grammar.skipMany space : TextGrammar [] Unit).Returns c
    ⟨.ok u, d⟩) : Blanks c.after d.after := by
  cases h.unique (skipMany_space c)
  rw [after_skip]
  exact ⟨_, fun x hx => List.mem_takeWhile_imp hx, List.takeWhile_append_dropWhile.symm⟩

theorem reads_skip (h : Blanks t t') (hf : Fresh t') : Reads (.skipMany space) t () t' := by
  rintro c rfl
  exact ⟨_, skipMany_space c, by rw [after_skip, h.dropWhile_eq hf]⟩

theorem of_lexeme_ok (h : (lexeme p).Returns c ⟨.ok v, d⟩) :
    ∃ b, p.Returns c ⟨.ok v, b⟩ ∧ Blanks b.after d.after := by
  obtain ⟨b, u, hp, hs⟩ := Grammar.left_ok_iff.1 h
  exact ⟨b, hp, of_skip_ok hs⟩

theorem Reads.lexeme (h : Reads p t v u) (hb : Blanks u t') (hf : Fresh t') :
    Reads (lexeme p) t v t' :=
  h.left (reads_skip hb hf)

theorem Refuses.lexeme (h : Refuses p t) : Refuses (lexeme p) t := h.left

section

variable {set first more : CharSet} {source s : String} {pat : Pattern} {w : List Char} {x : Char}

theorem Lexical.of_lexeme_ok (h : Lexical pat first more)
    (hr : (lexeme (regex source pat.ways.atStart.first)).Returns c ⟨.ok s, d⟩) : ∃ w u,
      pat.Matches w ∧ s = String.ofList w ∧ c.after = w ++ u ∧ Blanks u d.after := by
  obtain ⟨b, hs, hb⟩ := TextGrammar.of_lexeme_ok hr
  obtain ⟨w, hw, rfl, ha⟩ := h.of_ok hs
  exact ⟨w, b.after, hw, rfl, ha, hb⟩

/-- Neither white space nor what follows it may make a literal longer. -/
theorem Lexical.reads_lexeme (h : Lexical pat first more) (source : String) (hv : more.Visible)
    (hw : pat.Matches w) (hb : Blanks u t') (ht : Avoids more t') (hf : Fresh t') :
    Reads (lexeme (regex source pat.ways.atStart.first)) (w ++ u) (String.ofList w) t' :=
  (h.reads hw (hb.avoids ht hv)).lexeme hb hf

theorem of_token_ok {v : String} (h : (lexeme (string s)).Returns c ⟨.ok v, d⟩) :
    Lexeme s c.after d.after := by
  obtain ⟨b, hs, hb⟩ := of_lexeme_ok h
  exact ⟨_, of_string_ok hs, hb⟩

theorem Lexeme.reads (h : Lexeme s t t') (hf : Fresh t') :
    Reads (TextGrammar.lexeme (string s)) t s t' := by
  obtain ⟨u, rfl, hb⟩ := h
  exact (reads_string s u).lexeme hb hf

theorem refuses_token (set : CharSet) (hs : s.toList.head? = some x) (hx : set.has x = true)
    (ht : Avoids set t) : Refuses (TextGrammar.lexeme (string s)) t := by
  refine (refuses_string ?_).lexeme
  rintro ⟨u, rfl⟩
  exact ht.ne_head hx (by rw [List.head?_append, hs]; rfl)

/-- A token may be a single character. -/
theorem of_charToken_ok {y : Char} (hs : s.toList = [x])
    (h : (lexeme (char x)).Returns c ⟨.ok y, d⟩) : Lexeme s c.after d.after := by
  obtain ⟨b, hx, hb⟩ := of_lexeme_ok h
  exact ⟨b.after, by rw [hs]; exact of_char_ok hx, hb⟩

theorem Lexeme.reads_char (h : Lexeme s t t') (hs : s.toList = [x]) (hf : Fresh t') :
    Reads (TextGrammar.lexeme (char x)) t x t' := by
  obtain ⟨u, rfl, hb⟩ := h
  rw [hs]
  exact (reads_char x u).lexeme hb hf

theorem refuses_charToken (set : CharSet) (hx : set.has x = true) (ht : Avoids set t) :
    Refuses (TextGrammar.lexeme (char x)) t := by
  refine (refuses_char ?_).lexeme
  rintro ⟨u, rfl⟩
  exact ht.ne_head hx rfl

end

/-! ## Loops -/

/-- Values one after the other, each read from its own text. -/
inductive Many {α : Type} (L : List Char → α → List Char → Prop) :
    List Char → List α → List Char → Prop
  | nil {t : List Char} : Many L t [] t
  | cons {t u t' : List Char} {v : α} {vs : List α} : L t v u → Many L u vs t' →
    Many L t (v :: vs) t'

/-- A loop over the grammar reads these values, and then a round fails where it began. -/
def ReadsAll (p : TextGrammar [] α) (t : List Char) (vs : List α) (t' : List Char) : Prop :=
  ∀ ⦃c : TextCursor⦄, c.after = t → ∃ d, Loop p.Returns c vs d ∧ d.after = t'

/-- If all that is read from where a loop begins on is of the language, so is what the loop
reads. -/
theorem many_of_loop {L : List Char → α → List Char → Prop} {vs : List α}
    (hL : ∀ {b d : TextCursor} {v : α}, b.after.length ≤ c.after.length →
      p.Returns b ⟨.ok v, d⟩ → L b.after v d.after)
    (h : Loop p.Returns c vs d) : Many L c.after vs d.after := by
  induction h with
  | failed => exact .nil
  | idle hv => exact .cons (hL (Nat.le_refl _) hv) .nil
  | round hv _ _ ih =>
    have hle := length_after_le hv
    exact .cons (hL (Nat.le_refl _) hv) (ih fun hb => hL (Nat.le_trans hb hle))

theorem Refuses.readsAll (h : Refuses p t) : ReadsAll p t [] t := by
  intro c hc
  obtain ⟨e, he⟩ := h hc
  exact ⟨c, .failed he, hc⟩

theorem ReadsAll.cons {vs : List α} (hp : Reads p t v u) (hlt : u.length < t.length)
    (h : ReadsAll p u vs t') : ReadsAll p t (v :: vs) t' := by
  rintro c rfl
  obtain ⟨b, hb, rfl⟩ := hp rfl
  obtain ⟨d, hl, hd⟩ := h rfl
  refine ⟨d, .round hb (fun ho => ?_) hl, hd⟩
  obtain ⟨k, rfl⟩ : ∃ k, b = c.advance k := ahead_of_returns hb
  rw [TextCursor.advance_of_offset ho] at hlt
  exact Nat.lt_irrefl _ hlt

theorem reads_sepBy_nil (h : Refuses p t) : Reads (.sepBy q p) t [] t := by
  intro c hc
  obtain ⟨e, he⟩ := h hc
  exact ⟨c, Grammar.sepBy_ok_iff.2 (.inl ⟨e, c, he, rfl, rfl⟩), hc⟩

theorem Reads.sepBy {vs : List α} (hp : Reads p t v u) (h : ReadsAll (.right q p) u vs t') :
    Reads (.sepBy q p) t (v :: vs) t' := by
  intro c hc
  obtain ⟨b, hp, hb⟩ := hp hc
  obtain ⟨d, hl, hd⟩ := h hb
  exact ⟨d, Grammar.sepBy_ok_iff.2 (.inr ⟨v, vs, b, hp, hl, rfl⟩), hd⟩

theorem chainLeft_ok_iff {op : TextGrammar [] (α → α → α)} :
    (Grammar.chainLeft p op).Returns c ⟨.ok v, d⟩ ↔ ∃ x steps b, p.Returns c ⟨.ok x, b⟩ ∧
      Loop (Grammar.pair op p).Returns b steps d ∧
        steps.foldl (fun acc step => step.1 acc step.2) x = v := by
  rw [Grammar.chainLeft_returns_iff, folded_ok_iff]
  simp only [Operands, Grammar.chainStep_eq]
  constructor
  · rintro ⟨x, steps, ⟨b, hp, hl⟩, hv⟩
    exact ⟨x, steps, b, hp, hl, hv⟩
  · rintro ⟨x, steps, b, hp, hl, hv⟩
    exact ⟨x, steps, ⟨b, hp, hl⟩, hv⟩

theorem Reads.chainLeft {op : TextGrammar [] (α → α → α)} {steps : List ((α → α → α) × α)}
    (hp : Reads p t v u) (h : ReadsAll (.pair op p) u steps t') :
    Reads (.chainLeft p op) t (steps.foldl (fun acc step => step.1 acc step.2) v) t' := by
  intro c hc
  obtain ⟨b, hp, hb⟩ := hp hc
  obtain ⟨d, hl, hd⟩ := h hb
  exact ⟨d, chainLeft_ok_iff.2 ⟨v, steps, b, hp, hl, rfl⟩, hd⟩

/-! ## Whole texts -/

theorem finish_ok_iff :
    (finish p).Returns c ⟨.ok v, d⟩ ↔ p.Returns c ⟨.ok v, d⟩ ∧ d.after = [] := by
  constructor
  · rintro ⟨n, hn⟩
    have hn : (p.parser n : Parser TextCursor α).judge (TextScope.judge .finish) c = _ := hn
    match hp : (p.parser n : Parser TextCursor α) c with
    | none => simp [Parser.judge, hp] at hn
    | some ⟨.error e, b⟩ => cases hn.symm.trans (Parser.judge_error hp)
    | some ⟨.ok w, b⟩ =>
      rw [Parser.judge_ok hp] at hn
      by_cases hb : b.after.isEmpty
      · simp only [TextScope.judge, if_pos hb] at hn
        cases hn
        exact ⟨⟨n, hp⟩, List.isEmpty_iff.1 hb⟩
      · simp [TextScope.judge, hb] at hn
  · rintro ⟨⟨n, hn⟩, hd⟩
    refine ⟨n, ?_⟩
    have hj : (finish p).parser n c = some ⟨TextScope.judge .finish c v d, d⟩ :=
      Parser.judge_ok hn
    rw [hj, TextScope.judge, if_pos (List.isEmpty_iff.2 hd)]

/-- A run of a guarded grammar ends, with the value it can succeed with if there is one. -/
theorem run_of_guarded (hp : p.Guarded TextCursor .nil fun _ _ => False) (c : TextCursor) :
    ∃ r, (∀ n, c.after.length < n → p.parser n c = some r) ∧
      ∀ v, r.result = .ok v ↔ ∃ d, p.Returns c ⟨.ok v, d⟩ := by
  obtain ⟨r, hr⟩ := hp.ends (P := TextCursor.supply) TextCursor.prim_moves TextCursor.prim_total
    (c := c) trivial
  have hreturns : p.Returns c r := ⟨_, hr _ (Nat.lt_succ_self _)⟩
  refine ⟨r, hr, fun v => ⟨?_, ?_⟩⟩
  · intro hv
    exact ⟨r.cursor, by rwa [← hv]⟩
  · rintro ⟨d, hd⟩
    rw [hreturns.unique hd]

end TextGrammar
end Descent
