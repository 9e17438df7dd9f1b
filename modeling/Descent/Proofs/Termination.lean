import Descent.Proofs.FiniteSource
import Descent.Proofs.Guarded
import Descent.Proofs.TextPlaces

/-!
# Termination

A text is a `Supply`, of which the characters after the place are left, and so is a finite source.
Main theorem `guarded_returns`: on both, every grammar whose recursion is guarded returns, and as
much fuel as there are elements and one is enough for it.
-/

namespace Descent

/-! ## Texts -/

namespace TextCursor

theorem length_advance_le (c : TextCursor) (k : Nat) :
    (c.advance k).after.length ≤ c.after.length := by
  simp [advance]

theorem length_advance_lt {c : TextCursor} {k : Nat} (h : (c.advance k).offset ≠ c.offset) :
    (c.advance k).after.length < c.after.length := by
  have hk : k ≠ 0 := by
    rintro rfl
    exact h rfl
  have ha : c.after ≠ [] := by
    intro ha
    refine h ?_
    simp [advance, ha]
  have hl := List.length_pos_of_ne_nil ha
  simp only [advance, List.length_drop]
  omega

/-- The characters after the place are what is left. -/
def supply : Supply TextCursor where
  toCourse := course
  Ready _ := True
  left c := c.after.length
  ready _ h := h
  left_le := by
    rintro c _ ⟨k, rfl⟩ -
    exact length_advance_le c k
  left_lt := by
    rintro c _ ⟨k, rfl⟩ - hne
    exact length_advance_lt hne
  reads _ := ⟨_, rfl⟩
  exhausts _ := ⟨_, rfl⟩

/-- The parsers that only text has come back, from further on. -/
theorem prim_ends {α : Type} (p : TextPrim α) (c : TextCursor) :
    ∃ result k, TextPrim.run p c = some ⟨result, c.advance k⟩ := by
  cases p with
  | string target =>
    unfold TextPrim.run Parser.string
    dsimp only
    split
    · exact ⟨_, _, rfl⟩
    · exact ⟨_, 0, rfl⟩
  | takeWhile p nonempty =>
    unfold TextPrim.run Parser.takeWhile
    dsimp only
    split
    · exact ⟨_, 0, rfl⟩
    · exact ⟨_, _, rfl⟩
  | regex source find =>
    unfold TextPrim.run Parser.regex
    dsimp only
    split
    · exact ⟨_, _, rfl⟩
    · exact ⟨_, 0, rfl⟩
  | position | remaining | input => exact ⟨_, 0, rfl⟩

theorem prim_moves {α : Type} (p : TextPrim α) : supply.Moves (TextPrim.run p) := by
  intro c r hr
  obtain ⟨result, k, hp⟩ := prim_ends p c
  cases hr.symm.trans hp
  exact ⟨k, rfl⟩

theorem prim_total {α : Type} (p : TextPrim α) (k : Nat) : supply.Total (TextPrim.run p) k :=
  Supply.total_of_ready fun c _ =>
    let ⟨_, _, hp⟩ := prim_ends p c
    ⟨_, hp⟩

end TextCursor

/-! ## Guarded grammars -/

namespace Grammar

variable {σ ε : Type} {S : Signature} [Cursor σ ε] [Element ε] [Interprets S σ] {α : Type}

/-- A closed grammar that is guarded ends with the same result for all fuel beyond what is left. -/
theorem Guarded.ends {P : Supply σ} (hS : ∀ {β : Type} (p : S.Prim β), P.Moves (Interprets.prim p))
    (ht : ∀ {β : Type} (p : S.Prim β) (k : Nat), P.Total (Interprets.prim p) k)
    {g : Grammar ε S [] α} (hg : g.Guarded σ .nil fun _ _ => False) {c : σ} (hc : P.Ready c) :
    ∃ r, ∀ n, P.left c < n → g.parser n c = some r := by
  obtain ⟨r, hr⟩ := Guarded.total hS ht g hg (Nat.lt_succ_self _) .nil c hc (Nat.le_refl _)
  exact ⟨r, fun n hn => parser_le hn hr⟩

end Grammar

/-- Grammars with guarded recursion return: on a text from any place in it, and on a source with
finitely many elements. The result does not depend on the fuel, if there is more of it than there
are elements to read. -/
theorem guarded_returns {s ε : Type} [Source s ε] [Element ε] (c : TextCursor) (source : s) :
    (∀ {α : Type} (g : TextGrammar [] α), g.Guarded TextCursor .nil (fun _ _ => False) →
      ∃ r, ∀ n, c.after.length < n → g.parser n c = some r) ∧
    (∀ {α : Type} (g : Grammar ε .plain [] α), g.Guarded (Buffered s ε) .nil (fun _ _ => False) →
      ∀ k, Source.AtMost k source →
        ∃ r, ∀ n, k < n → g.parser n (Buffered.ofSource source : Buffered s ε) = some r) := by
  constructor
  · intro α g hg
    exact hg.ends (P := TextCursor.supply) TextCursor.prim_moves TextCursor.prim_total trivial
  · intro α g hg k hk
    have hc : (Buffered.ofSource source : Buffered s ε).Within k :=
      ⟨Nat.le_refl 0, k, hk, Nat.le_of_eq (Nat.zero_add k)⟩
    exact hg.ends (P := Buffered.supply k) (fun p => PEmpty.elim p) (fun p => PEmpty.elim p) hc

/-! ## Parentheses -/

/-- Parentheses inside each other. -/
def nested {S : Signature} : Grammar Char S [] Unit :=
  .fix 0 (.or (.right (.satisfy (· == '(')) (.left (.ref .here) (.satisfy (· == ')')))) (.ret ()))

namespace Grammar

variable {S : Signature}

/-- An element is consumed, where reading one moves the offset. -/
theorem item_advances {σ ε : Type} [Cursor σ ε] [Element ε] [Interprets S σ]
    (h : ∀ (c d : σ) (x : ε), Cursor.read c = some (some x, d) →
      Cursor.offset d ≠ Cursor.offset c) {Γ : List Type} (K : Enclosing ε S Γ) (label : String)
    (rule : ε → Except String Unit) : (item label rule).Advances σ K := by
  intro n c v d hr
  have hr : Parser.item rule c = some ⟨.ok v, d⟩ := hr
  unfold Parser.item Parser.andThen Parser.any at hr
  match hc : Cursor.read c with
  | none => simp [hc] at hr
  | some (none, c') => simp [hc] at hr
  | some (some x, c') =>
    simp only [hc] at hr
    cases hx : rule x with
    | ok u =>
      simp only [hx] at hr
      cases hr
      exact h c _ v hc
    | error m =>
      simp only [hx] at hr
      split at hr <;> cases hr

theorem nested_guarded {σ : Type} [Cursor σ Char] [Interprets S σ]
    (h : ∀ (c d : σ) (x : Char), Cursor.read c = some (some x, d) →
      Cursor.offset d ≠ Cursor.offset c) :
    (nested : Grammar Char S [] Unit).Guarded σ .nil fun _ _ => False :=
  ⟨⟨trivial, .inr (item_advances h _ _ _), trivial⟩, trivial⟩

end Grammar

/-- On a text that breaks off, and on a source with a gap in it. -/
theorem nested_returns :
    (nested : TextGrammar [] Unit).Guarded TextCursor .nil (fun _ _ => False) ∧
      (∃ r, ∀ n, 3 < n →
        (nested : TextGrammar [] Unit).parser n (TextCursor.ofText ['(', '(', ')']) = some r) ∧
      (nested : Grammar Char .plain [] Unit).Guarded (Buffered (Script Char) Char) .nil
        (fun _ _ => False) ∧
      Source.AtMost 2 (Script.ofList [some '(', none, some ')']) ∧
      ∃ r, ∀ n, 2 < n → (nested : Grammar Char .plain [] Unit).parser n
        (Buffered.ofSource (Script.ofList [some '(', none, some ')']) : Buffered _ Char) =
          some r := by
  have ht : (nested : TextGrammar [] Unit).Guarded TextCursor .nil (fun _ _ => False) :=
    Grammar.nested_guarded fun c d x h => by
      have hd : d.offset = c.offset + x.utf8Size := TextCursor.offset_of_read (Option.some.inj h)
      exact Nat.ne_of_gt (Nat.lt_of_lt_of_eq (Nat.lt_add_of_pos_right x.utf8Size_pos) hd.symm)
  have hs : (nested : Grammar Char .plain [] Unit).Guarded (Buffered (Script Char) Char) .nil
      (fun _ _ => False) := Grammar.nested_guarded fun c d x h => by
    have hp : d.pos = c.pos + 1 := (Buffered.of_read h).1
    exact Nat.ne_of_gt (Nat.lt_of_lt_of_eq (Nat.lt_succ_self _) hp.symm)
  have hk := Script.atMost [some '(', none, some ')']
  obtain ⟨text, elements⟩ := guarded_returns (.ofText ['(', '(', ')'])
    (Script.ofList [some '(', none, some ')'])
  exact ⟨ht, text _ ht, hs, hk, elements _ hs _ hk⟩

/-- More characters than there can be room for. Without a recursion, there is no result either. -/
theorem count_without_room :
    ¬ ∃ r, (.count 4 Parser.largestAllocation .any : TextGrammar [] (List Char)).Returns
      (TextCursor.ofText ['a', 'b']) r := by
  rintro ⟨r, n, hr⟩
  have hr : Parser.count 4 Parser.largestAllocation Parser.any (TextCursor.ofText ['a', 'b']) =
    some r := hr
  rw [Parser.count, if_neg (by decide)] at hr
  cases hr

end Descent
