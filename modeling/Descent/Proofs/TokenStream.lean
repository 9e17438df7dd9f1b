import Descent.Lexer.Script
import Descent.Proofs.Eager
import Descent.Proofs.Schedules

/-!
# Token streams: `IterCursor` over a `Lexer`

Parsing tokens while they come from a lexer does what parsing the list of them does, whatever the
schedule of the lexer is: main theorem `Lexer.stream_iff_batch`. That the schedules are all ways for
the two sides to take turns is `Pipeline.Exchange.scheduled`. A run takes tokens out of the lexer
only to put them into the buffer of the cursor (`Buffered.pulling`), so that none gets lost between
the two. And when all of the input has been parsed, the lexer has been asked in vain: its end is
known by then.
-/

namespace Descent

namespace Source

variable {s ε : Type} [Source s ε]

/-- Called again and again, the source `a` gives these answers, and is `b` after them. -/
inductive Answers : s → List (Option ε) → s → Prop
  | nil {a} : Answers a [] a
  | cons {a b c x xs} : next a = some (x, b) → Answers b xs c → Answers a (x :: xs) c

theorem Answers.append {a b c : s} {xs ys : List (Option ε)} (h : Answers a xs b)
    (h' : Answers b ys c) : Answers a (xs ++ ys) c := by
  induction h with
  | nil => exact h'
  | cons hn _ ih => exact .cons hn (ih h')

theorem exists_answers_of_later {a b : s} (h : Later a b) : ∃ xs, Answers a xs b := by
  induction h with
  | here => exact ⟨[], .nil⟩
  | @call _ _ _ x hn _ ih =>
    obtain ⟨xs, hxs⟩ := ih
    exact ⟨x :: xs, .cons hn hxs⟩

end Source

namespace Parser

variable {σ ε α β : Type} {c d : σ} {v : α} {w : β}

theorem of_andThen {p : Parser σ α} {f : α → Parser σ β}
    (h : p.andThen f c = some ⟨.ok w, d⟩) :
    ∃ v e, p c = some ⟨.ok v, e⟩ ∧ f v e = some ⟨.ok w, d⟩ := by
  unfold andThen at h
  split at h
  · cases h
  · cases h
  · rename_i v e hp
    exact ⟨v, e, hp, h⟩

theorem of_eof [Cursor σ ε] [Element ε] (h : eof c = some ⟨.ok (), d⟩) :
    Cursor.exhausted c = some (true, d) := by
  unfold eof at h
  split at h
  · cases h
  · rename_i e he
    cases h
    exact he
  · split at h <;> cases h

/-- After a success on all of the input, nothing is left. -/
theorem of_finish [Cursor σ ε] [Element ε] {p : Parser σ α} (h : p.finish c = some ⟨.ok v, d⟩) :
    ∃ e, p c = some ⟨.ok v, e⟩ ∧ Cursor.exhausted e = some (true, d) := by
  obtain ⟨v', e, hp, h⟩ := of_andThen h
  obtain ⟨u, e', he, h⟩ := of_andThen h
  cases h
  exact ⟨e, hp, of_eof he⟩

end Parser

namespace Buffered

open Source

variable {s ε : Type} [Source s ε] {c d : Buffered s ε}

/-- From `c` to `d`, the answers of the source have gone into the buffer. -/
def Pulled (c d : Buffered s ε) (answers : List (Option ε)) : Prop :=
  Answers c.source answers d.source ∧ d.buffer.toList = c.buffer.toList ++ answers.reduceOption

theorem Pulled.trans {e : Buffered s ε} {xs ys : List (Option ε)} (h : Pulled c d xs)
    (h' : Pulled d e ys) : Pulled c e (xs ++ ys) := by
  refine ⟨h.1.append h'.1, ?_⟩
  rw [h'.2, h.2, List.append_assoc, List.reduceOption_append]

/-- If fetching ends too early, it is because of an answer without an element. -/
theorem pulled_of_fetch : ∀ {missing : Nat} {c d : Buffered s ε} {filled : Bool},
    fetch missing c = some (filled, d) →
    ∃ answers, Pulled c d answers ∧ (filled = false → none ∈ answers)
  | 0, c, d, filled, h => by
    cases h
    exact ⟨[], ⟨.nil, (List.append_nil _).symm⟩, nofun⟩
  | missing + 1, c, d, filled, h => by
    unfold fetch at h
    split at h
    · cases h
    · rename_i source hn
      cases h
      exact ⟨[none], ⟨.cons hn .nil, (List.append_nil _).symm⟩, fun _ => List.mem_singleton_self _⟩
    · rename_i x source hn
      obtain ⟨answers, hp, hf⟩ := pulled_of_fetch h
      refine ⟨some x :: answers, ⟨.cons hn hp.1, ?_⟩, fun hfilled => .tail _ (hf hfilled)⟩
      rw [hp.2]
      simp

theorem pulled_of_read {x : Option ε} (h : c.read = some (x, d)) :
    ∃ answers, Pulled c d answers := by
  unfold read fill at h
  split at h
  · cases h
  · rename_i filled c' hf
    obtain ⟨answers, hp, -⟩ := pulled_of_fetch hf
    split at h
    · cases h
      exact ⟨answers, hp⟩
    · cases h
      exact ⟨answers, hp⟩

/-- If nothing is left to read, it is because of an answer without an element. -/
theorem pulled_of_exhausted {b : Bool} (h : Cursor.exhausted c = some (b, d)) :
    ∃ answers, Pulled c d answers ∧ (b = true → none ∈ answers) := by
  obtain ⟨⟨filled, d'⟩, hf, he⟩ := Option.map_eq_some_iff.1 h
  cases he
  obtain ⟨answers, hp, hnone⟩ := pulled_of_fetch hf
  exact ⟨answers, hp, fun hb => hnone (by simpa using hb)⟩

/-- Runs take elements out of the source only to put them into the buffer. -/
def pulling : Course (Buffered s ε) where
  Ahead c d := ∃ answers, Pulled c d answers
  refl c := ⟨[], .nil, (List.append_nil _).symm⟩
  trans h h' := by
    obtain ⟨xs, hx⟩ := h
    obtain ⟨ys, hy⟩ := h'
    exact ⟨xs ++ ys, hx.trans hy⟩
  read h := pulled_of_read h
  unread {c d b x} h hb := by
    obtain ⟨answers, hp⟩ := pulled_of_read h
    have hb : d.unread = some b := hb
    unfold unread at hb
    split at hb
    · cases hb
    · cases hb
      exact ⟨answers, hp⟩
  restore h := h
  exhausted h := by
    obtain ⟨answers, hp, -⟩ := pulled_of_exhausted h
    exact ⟨answers, hp⟩
  visit _ c := ⟨[], .nil, (List.append_nil _).symm⟩

theorem pulled_of_returns [Element ε] {α : Type} {g : Grammar ε .plain [] α}
    {r : Reply (Buffered s ε) α} (hr : g.Returns c r) : ∃ answers, Pulled c r.cursor answers :=
  hr.ahead (K := pulling) fun p => PEmpty.elim p

/-- After a success on all of the input, the source has answered without an element. -/
theorem pulled_of_finish [Element ε] {α : Type} {g : Grammar ε .plain [] α} {v : α}
    (hr : g.finish.Returns c ⟨.ok v, d⟩) : ∃ answers, Pulled c d answers ∧ none ∈ answers := by
  obtain ⟨n, hn⟩ := hr
  obtain ⟨e, hg, he⟩ := Parser.of_finish hn
  obtain ⟨xs, hx⟩ := pulled_of_returns ⟨n, hg⟩
  obtain ⟨ys, hy, hnone⟩ := pulled_of_exhausted he
  exact ⟨xs ++ ys, hx.trans hy, List.mem_append_right xs (hnone rfl)⟩

/-- What a run on a source comes to depends only on the elements. -/
theorem outcome_of_yields [Element ε] {α : Type} {xs : List ε} {source : s}
    (h : Source.Yields xs source) (g : Grammar ε .plain [] α) (result : Except ParseError α)
    (stop : Nat) : Outcome Cursor.offset g (ofSource source : Buffered s ε) result stop ↔
      Outcome Cursor.offset g (Eager.mk xs 0) result stop := by
  have hb : Eager.Beside xs (ofSource source : Buffered s ε) (Eager.mk xs 0) :=
    ⟨rfl, rfl, holds_partway (k := 0) h 0⟩
  exact Correspondence.outcome_iff (C := Eager.correspondence s xs) rfl hb g result stop

end Buffered

namespace Lexer

open Pipeline Source

variable {ι τ ω : Type} {text : List Char} {first : ι} {n : Nat} {emitted ts : List (Token τ)}
  {how : Ending} {given xs : List (Option (Token τ))} {l l' : Lexer ι τ ω}

theorem Serves.answers (h : Serves ts how given l) (ha : Answers l xs l') :
    l'.states = l.states ∧ Serves ts how (given ++ xs) l' := by
  induction ha generalizing given with
  | nil => exact ⟨rfl, by simpa using h⟩
  | cons hn _ ih =>
    obtain ⟨l₁, hl₁, hs, h₁⟩ := h.next
    cases hl₁.symm.trans hn
    obtain ⟨hs', h'⟩ := ih h₁
    exact ⟨hs'.trans hs, by simpa using h'⟩

theorem Serves.nth : ∀ {i : Nat} {given : List (Option (Token τ))} {l : Lexer ι τ ω},
    Serves ts how given l → Source.nth i l = some (ts.drop given.reduceOption.length)[i]?
  | i, given, l, h => by
    obtain ⟨l', hl', -, h'⟩ := h.next
    rw [List.getElem?_drop]
    cases hk : ts[given.reduceOption.length]? with
    | none =>
      rw [hk] at hl'
      have hlen := List.getElem?_eq_none_iff.1 hk
      rw [nth_empty hl', List.getElem?_eq_none (by omega)]
    | some t =>
      rw [hk] at hl' h'
      cases i with
      | zero => rw [nth_zero hl', Nat.add_zero, hk]
      | succ i =>
        rw [nth_succ hl', h'.nth, List.getElem?_drop, List.reduceOption_append]
        simp [List.reduceOption, Nat.add_assoc, Nat.add_comm 1 i]

/-- A lexer gives the tokens that have not been given yet. -/
theorem Serves.yields (h : Serves ts how given l) :
    Source.Yields (ts.drop given.reduceOption.length) l where
  fused a b hl hn := by
    obtain ⟨xs, hxs⟩ := exists_answers_of_later hl
    have ha := (h.answers hxs).2
    obtain ⟨b', hb', -, h'⟩ := ha.next
    obtain ⟨hnone, rfl⟩ := Prod.mk.inj (Option.some.inj (hb'.symm.trans hn))
    rw [hnone] at h'
    obtain ⟨c, hc, -, -⟩ := h'.next
    have hlen : (given ++ xs ++ [none]).reduceOption = (given ++ xs).reduceOption := by
      simp [List.reduceOption]
    rw [hlen, hnone] at hc
    exact ⟨c, hc⟩
  nth _ := h.nth

theorem Serves.drain : ∀ (fuel : Nat) {given : List (Option (Token τ))} {l : Lexer ι τ ω},
    Serves ts how given l → ts.length < fuel + given.reduceOption.length →
    ∃ last, drain fuel l = some (ts.drop given.reduceOption.length, last)
  | 0, given, l, h, hf => by
    have hlen := h.prefix.length_le
    omega
  | fuel + 1, given, l, h, hf => by
    obtain ⟨l', hl', -, h'⟩ := h.next
    unfold Lexer.drain
    cases hk : ts[given.reduceOption.length]? with
    | none =>
      rw [hk] at hl'
      rw [hl', List.drop_eq_nil_of_le (List.getElem?_eq_none_iff.1 hk)]
      exact ⟨l', rfl⟩
    | some t =>
      rw [hk] at hl' h'
      have hlen : (given ++ [some t]).reduceOption.length = given.reduceOption.length + 1 := by
        simp [List.reduceOption]
      obtain ⟨last, hlast⟩ := h'.drain fuel (by omega)
      obtain ⟨hlt, rfl⟩ := List.getElem?_eq_some_iff.1 hk
      rw [hl', List.drop_eq_getElem_cons hlt, ← hlen]
      exact ⟨last, by simp [hlast]⟩

/-- Before the first call, the producer may have made any number of steps. -/
theorem serves_start (hl : Exchange l.states (.start text (l.states first)) emitted [] l.pipe)
    (hi : l.pipe.consumer = .idle) (h : Lexes l.states text first n ts how)
    (hp : 2 * n + 7 ≤ l.patience) : Serves ts how [] l := by
  obtain ⟨k, ho⟩ := hl.orderly_start
  exact ⟨⟨text, first, n, k, emitted, h, hp, ho⟩, hi⟩

/-- The states of the lexer emit `ts` on the text and end as `how` says. Whatever its schedule is,
parsing from the lexer comes to the same as parsing from the list `ts`; what the cursor has in its
buffer and what is still to come are `ts`; and after a success on all of the input the error of the
lexer says how the states have ended, for good. -/
theorem stream_iff_batch [Element (Token τ)] {α : Type}
    (hl : Exchange l.states (.start text (l.states first)) emitted [] l.pipe)
    (hi : l.pipe.consumer = .idle) (h : Lexes l.states text first n ts how)
    (hp : 2 * n + 7 ≤ l.patience) (g : Grammar (Token τ) .plain [] α) :
    (∀ result stop,
      Outcome Cursor.offset g (Buffered.ofSource l : Buffered _ (Token τ)) result stop ↔
      Outcome Cursor.offset g
        (Buffered.ofSource (Script.ofList (ts.map some)) : Buffered _ (Token τ)) result stop) ∧
    (∀ r, g.Returns (Buffered.ofSource l : Buffered _ (Token τ)) r → ∀ fuel, ts.length < fuel →
      ∃ rest last, r.cursor.source.drain fuel = some (rest, last) ∧
        r.cursor.buffer.toList ++ rest = ts) ∧
    ∀ v d, g.finish.Returns (Buffered.ofSource l : Buffered _ (Token τ)) ⟨.ok v, d⟩ →
      (d.source.err = none ↔ how = .stopped) ∧
      ∀ {emitted' answers' p}, Exchange l.states d.source.pipe emitted' answers' p →
        p.err = d.source.err := by
  have hs := serves_start hl hi h hp
  refine ⟨fun result stop => ?_, fun r hr fuel hf => ?_, fun v d hd => ?_⟩
  · have hstream := Buffered.outcome_of_yields hs.yields g result stop
    have hbatch := Buffered.outcome_of_yields (Script.yields ts) g result stop
    exact hstream.trans hbatch.symm
  · obtain ⟨answers, ha, hb⟩ := Buffered.pulled_of_returns hr
    have hs' := (hs.answers ha).2
    obtain ⟨last, hlast⟩ := hs'.drain fuel (by omega)
    refine ⟨_, last, hlast, ?_⟩
    obtain ⟨rest, hrest⟩ := hs'.prefix
    rw [hb, ← hrest]
    simp [Buffered.ofSource]
  · obtain ⟨answers, ⟨ha, -⟩, hnone⟩ := Buffered.pulled_of_finish hd
    obtain ⟨hstates, hs'⟩ := hs.answers ha
    have herr := hs'.err_eq (List.mem_append_right [] hnone) .start
    refine ⟨?_, fun he => ?_⟩
    · rw [← Ending.error_eq_none]
      exact iff_of_eq (congrArg (· = none) herr)
    · rw [← hstates] at he
      exact (hs'.err_eq (List.mem_append_right [] hnone) he).trans herr.symm

/-- A lexer that crashes after its first token. Its producer goes first two times out of three. -/
def cutShort : Lexer Nat String Note where
  states := scripted [[.read, .emit "a"], [.panic]]
  pipe := .start ['x', 'y'] (scripted [[.read, .emit "a"], [.panic]] 0)
  producerFirst i := i % 3 != 0
  clock := 0
  patience := 25

def onlyToken : Token String := ⟨"a", String.ofList ['x'], 1, 0, 1⟩

def everyToken : Grammar (Token String) .plain [] (List (Token String)) := .many .any

/-- All of its tokens are parsed, and the crash is known. -/
theorem cutShort_parsed : ∃ d : Buffered (Lexer Nat String Note) (Token String),
    everyToken.finish.Returns (.ofSource cutShort) ⟨.ok [onlyToken], d⟩ ∧ d.source.err ≠ none := by
  have run : Emits cutShort.states (.ofText ['x', 'y']) (cutShort.states 0) 0 [] _ _ := .start
  have run := run.step rfl |>.step rfl |>.step rfl |>.step rfl |>.step rfl |>.step rfl
    |>.step rfl |>.step rfl |>.step rfl
  have h : Lexes cutShort.states ['x', 'y'] 0 9 [onlyToken] .panicked := ⟨_, run⟩
  have hbatch : everyToken.finish.Returns
      (.ofSource (.ofList [some onlyToken]) : Buffered (Script (Token String)) (Token String))
      ⟨.ok [onlyToken], _⟩ := ⟨2, rfl⟩
  have hp : 2 * 9 + 7 ≤ cutShort.patience := Nat.le_refl 25
  obtain ⟨hsame, -, -⟩ := stream_iff_batch .start rfl h hp everyToken.finish
  obtain ⟨-, -, hend⟩ := stream_iff_batch .start rfl h hp everyToken
  obtain ⟨d, hd, -⟩ := (hsame _ _).2 ⟨_, hbatch, rfl⟩
  refine ⟨d, hd, fun he => ?_⟩
  cases (hend _ d hd).1.1 he

end Lexer

end Descent
