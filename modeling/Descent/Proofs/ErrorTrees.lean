import Descent.Proofs.Blame
import Descent.Proofs.TextPlaces

/-!
# Failures on a text tell the truth

A failure is a tree, and each of its nodes gives an offset, a character it has found or what was
left of the text. `ParseError.Truthful` compares a node with the text itself. Main theorem
`failures_truthful`: every node of every failure of a run is truthful, no node lies before the start
of the run or before the choice it belongs to, and two kinds of failure never arise.
-/

namespace Descent

namespace ParseError

mutual
/-- The failure and the failures inside it. -/
def nodes : ParseError → List ParseError
  | alternatives offset causes => alternatives offset causes :: nodesAll causes
  | expected label offset causes => expected label offset causes :: nodesAll causes
  | named label inner => named label inner :: inner.nodes
  | e => [e]

def nodesAll : List ParseError → List ParseError
  | [] => []
  | e :: es => e.nodes ++ nodesAll es
end

theorem mem_nodesAll {node : ParseError} {es : List ParseError} :
    node ∈ nodesAll es ↔ ∃ e ∈ es, node ∈ e.nodes := by
  induction es with
  | nil => simp [nodesAll]
  | cons e es ih => simp [nodesAll, ih]

theorem mem_nodes_self (e : ParseError) : e ∈ e.nodes := by
  cases e <;> simp [nodes]

/-- The failure arose at the offset or after it. -/
def NotBefore (offset : Nat) (e : ParseError) : Prop := ∃ o, e.offset? = some o ∧ offset ≤ o

/-- What the topmost node says is so, if `after` is what follows its offset in the text. -/
def Says (text after : List Char) : ParseError → Prop
  | endOfInput offset => after = [] ∧ offset = Text.width text
  | predicate offset found _ =>
    offset < Text.width text ∧ ∃ x rest, after = x :: rest ∧ found = Text.quoteChar x
  | unparsed offset remaining =>
    offset < Text.width text ∧ remaining ≠ "" ∧ ∃ x rest, after = x :: rest ∧
      (remaining = String.ofList after ∨ remaining = Text.quoteChar x)
  | alternatives offset causes => causes.length = 2 ∧ ∀ e ∈ causes, e.NotBefore offset
  | expected _ offset causes => ∀ e ∈ causes, e.NotBefore offset
  | transform _ _ | named _ _ | failure _ _ => True
  | nothingToUnread _ | lex _ => False

/-- The topmost node stands at a place of the text that is not before `start`, and what it says is
so. -/
def Truthful (text : List Char) (start : Nat) (e : ParseError) : Prop :=
  ∃ before after, text = before ++ after ∧ e.offset? = some (Text.width before) ∧
    start ≤ Text.width before ∧ e.Says text after

theorem Truthful.notBefore {text : List Char} {start : Nat} {e : ParseError}
    (h : e.Truthful text start) : e.NotBefore start := by
  obtain ⟨before, -, -, ho, hs, -⟩ := h
  exact ⟨_, ho, hs⟩

theorem Truthful.of_le {text : List Char} {start start' : Nat} {e : ParseError}
    (h : e.Truthful text start') (hs : start ≤ start') : e.Truthful text start := by
  obtain ⟨before, after, ht, ho, hs', hsays⟩ := h
  exact ⟨before, after, ht, ho, Nat.le_trans hs hs', hsays⟩

end ParseError

namespace TextCursor

/-- Every node of a failure of a run from `c` is truthful. -/
def Honest (c : TextCursor) (e : ParseError) : Prop :=
  c.Sound → ∀ node ∈ e.nodes, node.Truthful c.text c.offset

/-! ## Nodes at the cursor -/

theorem Sound.truthful {c : TextCursor} (h : c.Sound) {e : ParseError}
    (ho : e.offset? = some c.offset) (hs : e.Says c.text c.after) : e.Truthful c.text c.offset := by
  refine ⟨c.before.reverse, c.after, rfl, ?_, ?_, hs⟩
  · simp [ho, h.offset]
  · simp [h.offset]

theorem Sound.offset_of_nil {c : TextCursor} (h : c.Sound) (ha : c.after = []) :
    c.offset = Text.width c.text := by
  simp [h.offset, text, ha]

theorem Sound.offset_of_cons {c : TextCursor} (h : c.Sound) {x : Char} {rest : List Char}
    (ha : c.after = x :: rest) : c.offset < Text.width c.text := by
  have := x.utf8Size_pos
  simp only [h.offset, text, ha, Text.width_append, Text.width_reverse, Text.width_cons]
  omega

theorem after_of_read {c d : TextCursor} {x : Char} (h : c.read = (some x, d)) :
    ∃ rest, c.after = x :: rest := by
  rw [read_eq_advance] at h
  cases ha : c.after with
  | nil => simp [ha] at h
  | cons y rest =>
    rw [ha] at h
    cases (Prod.mk.inj h).1
    exact ⟨rest, rfl⟩

theorem of_read_eq_none {c d : TextCursor} (h : c.read = (none, d)) : c.after = [] ∧ d = c := by
  unfold read at h
  split at h
  · next ha => exact ⟨ha, (Prod.mk.inj h).2.symm⟩
  · cases h

theorem quoteChar_ne_empty (x : Char) : Text.quoteChar x ≠ "" := by
  simp [Text.quoteChar]

theorem honest_mismatch (c : TextCursor) (message : String) :
    c.Honest (Parser.mismatch c message) := by
  intro hc node hn
  unfold Parser.mismatch at hn
  cases ha : c.after with
  | nil =>
    simp only [ha, ParseError.nodes, List.mem_singleton] at hn
    subst hn
    exact hc.truthful rfl ⟨ha, hc.offset_of_nil ha⟩
  | cons x rest =>
    simp only [ha, ParseError.nodes, List.mem_singleton] at hn
    subst hn
    exact hc.truthful rfl ⟨hc.offset_of_cons ha, x, rest, ha, rfl⟩

/-! ## Failures of runs -/

/-- However a failure is put together, it stays honest. -/
def blame : Blame course where
  Fault := Honest
  later := by
    rintro c d e ⟨k, rfl⟩ h hc node hn
    have hnode := h (hc.advance k) node hn
    rw [text_advance] at hnode
    exact hnode.of_le (offset_le_advance c k)
  endOfInput {c d} h := by
    intro hc node hn
    obtain ⟨ha, rfl⟩ := of_read_eq_none (Option.some.inj h)
    simp only [ParseError.nodes, List.mem_singleton] at hn
    subst hn
    exact hc.truthful rfl ⟨ha, hc.offset_of_nil ha⟩
  predicate {c d x} m h := by
    intro hc node hn
    obtain ⟨rest, ha⟩ := after_of_read (Option.some.inj h)
    simp only [ParseError.nodes, List.mem_singleton] at hn
    subst hn
    exact hc.truthful rfl ⟨hc.offset_of_cons ha, x, rest, ha, rfl⟩
  nothingToUnread {c d x} h hu := by
    -- what has been read can be put back
    cases hu.symm.trans (of_read_eq_some (Option.some.inj h)).2
  unparsed {c d x d'} he hr := by
    intro hc node hn
    obtain ⟨hempty, rfl⟩ := Prod.mk.inj (Option.some.inj he)
    obtain ⟨y, rest, ha⟩ : ∃ y rest, c.after = y :: rest := by
      cases ha : c.after with
      | nil => simp [ha] at hempty
      | cons y rest => exact ⟨y, rest, rfl⟩
    obtain rfl : some y = x := by
      have hr := (read_eq_advance c).symm.trans (Option.some.inj hr)
      simpa [ha] using (Prod.mk.inj hr).1
    simp only [ParseError.nodes, List.mem_singleton] at hn
    subst hn
    exact hc.truthful rfl
      ⟨hc.offset_of_cons ha, quoteChar_ne_empty y, y, rest, ha, .inr rfl⟩
  failure c m := by
    intro hc node hn
    simp only [ParseError.nodes, List.mem_singleton] at hn
    subst hn
    exact hc.truthful rfl trivial
  transform c m := by
    intro hc node hn
    simp only [ParseError.nodes, List.mem_singleton] at hn
    subst hn
    exact hc.truthful rfl trivial
  alternatives {c e f} he hf := by
    intro hc node hn
    simp only [ParseError.nodes, ParseError.nodesAll, List.append_nil, List.mem_cons,
      List.mem_append] at hn
    rcases hn with rfl | hn | hn
    · refine hc.truthful rfl ⟨rfl, ?_⟩
      simp only [List.forall_mem_cons, List.not_mem_nil, false_imp_iff, implies_true, and_true]
      exact ⟨(he hc e e.mem_nodes_self).notBefore, (hf hc f f.mem_nodes_self).notBefore⟩
    · exact he hc node hn
    · exact hf hc node hn
  expected {c es} label h := by
    intro hc node hn
    simp only [ParseError.nodes, List.mem_cons, ParseError.mem_nodesAll] at hn
    rcases hn with rfl | ⟨e, he, hn⟩
    · exact hc.truthful rfl fun e he => (h e he hc e e.mem_nodes_self).notBefore
    · exact h e he hc node hn
  named {c e} label h := by
    intro hc node hn
    simp only [ParseError.nodes, List.mem_cons] at hn
    rcases hn with rfl | hn
    · obtain ⟨before, after, ht, ho, hs, -⟩ := h hc e e.mem_nodes_self
      exact ⟨before, after, ht, ho, hs, trivial⟩
    · exact h hc node hn

theorem covers_text : blame.Covers .text where
  moves
    | .string target => by
      intro c r hr
      have hr : Parser.string target c = some r := hr
      unfold Parser.string at hr
      split at hr <;> cases hr
      · exact ⟨_, rfl⟩
      · exact ⟨0, rfl⟩
    | .takeWhile p nonempty => by
      intro c r hr
      have hr : Parser.takeWhile p nonempty c = some r := hr
      unfold Parser.takeWhile at hr
      dsimp only at hr
      split at hr <;> cases hr
      · exact ⟨0, rfl⟩
      · exact ⟨_, rfl⟩
    | .regex source find => by
      intro c r hr
      have hr : Parser.regex source find c = some r := hr
      unfold Parser.regex at hr
      split at hr <;> cases hr
      · exact ⟨_, rfl⟩
      · exact ⟨0, rfl⟩
    | .position | .remaining | .input => by
      intro c r hr
      cases hr
      exact ⟨0, rfl⟩
  prim {_} p {c d e} h := by
    match p, h with
    | .string target, h =>
      have h : Parser.string target c = some ⟨.error e, d⟩ := h
      unfold Parser.string at h
      split at h <;> cases h
      exact honest_mismatch c _
    | .takeWhile p nonempty, h =>
      have h : Parser.takeWhile p nonempty c = some ⟨.error e, d⟩ := h
      unfold Parser.takeWhile at h
      dsimp only at h
      split at h <;> cases h
      exact honest_mismatch c _
    | .regex source find, h =>
      have h : Parser.regex source find c = some ⟨.error e, d⟩ := h
      unfold Parser.regex at h
      split at h <;> cases h
      exact honest_mismatch c _
    | .position, h | .remaining, h | .input, h => cases h
  scope {_ _} s v {c d e} h he := by
    obtain ⟨k, rfl⟩ := h
    cases s with
    | consumed => cases he
    | location f => cases he
    | finish =>
      have he : (if (c.advance k).after.isEmpty then .ok v
        else .error (.unparsed (c.advance k).offset (c.advance k).remaining)) = Except.error e := he
      cases ha : (c.advance k).after with
      | nil => simp [ha] at he
      | cons x rest =>
        simp only [ha, List.isEmpty_cons, Bool.false_eq_true, if_false, Except.error.injEq] at he
        subst he
        refine blame.later ⟨k, rfl⟩ fun hc node hn => ?_
        simp only [ParseError.nodes, List.mem_singleton] at hn
        subst hn
        refine hc.truthful rfl ⟨hc.offset_of_cons ha, ?_, x, rest, ha, .inl rfl⟩
        simp [remaining, ha]

/-- Wherever a text grammar is run, all of its failure is true of the text. -/
theorem failures_truthful {text : List Char} {c : TextCursor}
    (hc : Reachable .text (ofText text) c) {α : Type} (g : TextGrammar [] α) {e : ParseError}
    {d : TextCursor} (hr : g.Returns c ⟨.error e, d⟩) :
    ∀ node ∈ e.nodes, node.Truthful text c.offset := by
  obtain ⟨hs, rfl⟩ := sound_of_reachable hc
  exact hr.blamed covers_text hs

/-- The second of two alternatives has read a character when it finds that the text goes on: one
failure inside a name inside the failure of the choice. -/
theorem pair_truthful :
    Reachable .text (ofText ['é', 'a']) (ofText ['é', 'a']) ∧
      (.choice "pair" (.family [.fail "first", .right .any (.named "end" .eof)]) :
        TextGrammar [] Unit).Returns (ofText ['é', 'a'])
          ⟨.error (.expected "pair" 0
            [.failure 0 "first", .named "end" (.unparsed 2 (Text.quoteChar 'a'))]),
            ⟨['é'], ['a'], 2, 1⟩⟩ ∧
      (ParseError.unparsed 2 (Text.quoteChar 'a')).Truthful ['é', 'a'] 0 := by
  have hr : (.choice "pair" (.family [.fail "first", .right .any (.named "end" .eof)]) :
      TextGrammar [] Unit).Returns (ofText ['é', 'a'])
        ⟨.error (.expected "pair" 0
          [.failure 0 "first", .named "end" (.unparsed 2 (Text.quoteChar 'a'))]),
          ⟨['é'], ['a'], 2, 1⟩⟩ := ⟨0, rfl⟩
  exact ⟨.start, hr, failures_truthful .start _ hr _
    (by simp [ParseError.nodes, ParseError.nodesAll])⟩

end TextCursor
end Descent
