import Descent.Proofs.TextPlaces
import Descent.Proofs.Undone
import Mathlib.Data.List.TakeWhile

/-!
# Several characters at once: `string` / `take_while` / `skip_while`

The parsers that take several characters at once give what the parsers for one character give when
they are repeated or put in a row, and leave the cursor at the same place: `takeWhile` is `many` of
single characters, and a string is the row of its characters, but that it is never half read.

Main theorem `several_at_once`, for cursors on a text and for cursors that count its bytes.
-/

namespace Descent

/-- Failures of one kind at one offset, which may word it differently. -/
inductive ParseError.Akin : ParseError → ParseError → Prop
  | endOfInput (offset : Nat) : Akin (.endOfInput offset) (.endOfInput offset)
  | predicate (offset : Nat) (found message message' : String) :
    Akin (.predicate offset found message) (.predicate offset found message')

/-- The characters `ts`, one after the other. -/
def TextGrammar.row (ts : List Char) : TextGrammar [] (List Char) := .list (.family (ts.map char))

/-- What the parsers for several characters come to at `c`, in terms of those for one. -/
structure Charwise {σ : Type} [Cursor σ Char] [Interprets .text σ] (c : σ) : Prop where
  takeWhile (p : Char → Bool) : ∃ vs d,
    (Grammar.many (TextGrammar.satisfyChar p)).Returns c ⟨.ok vs, d⟩ ∧
      (TextGrammar.takeWhile p).Returns c ⟨.ok (String.ofList vs), d⟩
  takeWhile1 (p : Char → Bool) :
    (∃ vs d, (Grammar.many1 (TextGrammar.satisfyChar p)).Returns c ⟨.ok vs, d⟩ ∧
      (TextGrammar.takeWhile1 p).Returns c ⟨.ok (String.ofList vs), d⟩) ∨
    ∃ e e', (Grammar.many1 (TextGrammar.satisfyChar p)).Returns c ⟨.error e, c⟩ ∧
      (TextGrammar.takeWhile1 p).Returns c ⟨.error e', c⟩ ∧ e.Akin e'
  skipWhile (p : Char → Bool) : ∃ d,
    (Grammar.skipMany (TextGrammar.skipChar p)).Returns c ⟨.ok (), d⟩ ∧
      (TextGrammar.skipWhile p).Returns c ⟨.ok (), d⟩
  string (t : String) :
    (∃ d, (TextGrammar.row t.toList).Returns c ⟨.ok t.toList, d⟩ ∧
      (TextGrammar.string t).Returns c ⟨.ok t, d⟩) ∨
    ∃ e e' d, (TextGrammar.row t.toList).Returns c ⟨.error e, d⟩ ∧
      (TextGrammar.string t).Returns c ⟨.error e', c⟩

/-! ## One character -/

namespace TextCursor

variable {c : TextCursor} {x : Char} {rest : List Char}

theorem after_advance_one (h : c.after = x :: rest) : (c.advance 1).after = rest := by
  simp [advance, h]

theorem offset_advance_one (h : c.after = x :: rest) : (c.advance 1).offset ≠ c.offset := by
  have := x.utf8Size_pos
  simp only [advance, h, List.take_succ_cons, List.take_zero, Text.width_cons, Text.width_nil]
  omega

end TextCursor

namespace Parser

theorem map_map {σ α β γ : Type} (p : Parser σ α) (f : α → β) (g : β → γ) :
    (p.map f).map g = p.map (g ∘ f) :=
  andThen_map p _ g

variable {c : TextCursor} {x : Char} {rest : List Char} {rule : Char → Except String Unit}

theorem any_next (h : c.after = x :: rest) : any c = some ⟨.ok x, c.advance 1⟩ := by
  have hr : Cursor.read c = some (some x, c.advance 1) :=
    congrArg some ((TextCursor.read_eq_advance c).trans (by rw [h]; rfl))
  unfold any
  rw [hr]

theorem any_end (h : c.after = []) : any c = some ⟨.error (.endOfInput c.offset), c⟩ := by
  have hr : Cursor.read c = some (none, c) := congrArg some (by simp [TextCursor.read, h])
  unfold any
  rw [hr]
  rfl

theorem item_accepts (h : c.after = x :: rest) (hx : rule x = .ok ()) :
    item rule c = some ⟨.ok x, c.advance 1⟩ := by
  unfold item
  rw [andThen_ok (any_next h), hx]

/-- A character that the rule rejects is put back. -/
theorem item_rejects {m : String} (hx : ∀ x ∈ c.after.head?, rule x = .error m) :
    item rule c = some ⟨.error (mismatch c m), c⟩ := by
  unfold item
  cases h : c.after with
  | nil => simp [andThen, any_end h, mismatch, h]
  | cons x rest =>
    -- the character that has been read is the one right before the cursor now
    have hu : Cursor.unread (c.advance 1) = some c := by
      have hu := TextCursor.unread_read c (by simp [h])
      rwa [TextCursor.read_eq_advance] at hu
    rw [andThen_ok (any_next h), hx x (by simp [h])]
    dsimp only
    rw [hu]
    simp [mismatch, h, Cursor.offset, Element.shown]

theorem mismatch_akin (c : TextCursor) (m m' : String) : (mismatch c m).Akin (mismatch c m') := by
  unfold mismatch
  cases c.after with
  | nil => exact .endOfInput _
  | cons x rest => exact .predicate _ _ _ _

end Parser

namespace TextGrammar

variable {c : TextCursor} {x : Char} {rest : List Char} {p : Char → Bool}

theorem satisfyChar_ok (h : c.after = x :: rest) (hx : p x = true) (n : Nat) :
    (satisfyChar p : TextGrammar [] Char).parser n c = some ⟨.ok x, c.advance 1⟩ :=
  Parser.item_accepts h (if_pos hx)

theorem satisfyChar_error (h : c.after.takeWhile p = []) (n : Nat) :
    (satisfyChar p : TextGrammar [] Char).parser n c =
      some ⟨.error (Parser.mismatch c "char does not match predicate"), c⟩ := by
  refine Parser.item_rejects fun x hx => if_neg fun hp => ?_
  cases hc : c.after with
  | nil => simp [hc] at hx
  | cons y rest =>
    obtain rfl : y = x := by simpa [hc] using hx
    simp [hc, hp] at h

theorem char_ok (h : c.after = x :: rest) (n : Nat) :
    (char x : TextGrammar [] Char).parser n c = some ⟨.ok x, c.advance 1⟩ :=
  Parser.item_accepts h (if_pos rfl)

theorem char_error (h : ¬ [x] <+: c.after) (n : Nat) : (char x : TextGrammar [] Char).parser n c =
    some ⟨.error (Parser.mismatch c ("expected " ++ Text.quoteChar x)), c⟩ := by
  refine Parser.item_rejects fun y hy => if_neg ?_
  rintro rfl
  cases hc : c.after with
  | nil => simp [hc] at hy
  | cons z rest =>
    obtain rfl : z = y := by simpa [hc] using hy
    exact h ⟨rest, hc.symm⟩

/-! ## Runs of characters -/

/-- Single characters repeated go over those for which `p` holds, as far as they go: by induction on
what lies ahead. -/
theorem loop_satisfyChar (p : Char → Bool) : ∀ {cs : List Char} {c : TextCursor}, c.after = cs →
    Loop (satisfyChar p : TextGrammar [] Char).Returns c (cs.takeWhile p)
      (c.advance (cs.takeWhile p).length)
  | [], c, h => .failed ⟨0, satisfyChar_error (by rw [h]; rfl) 0⟩
  | x :: rest, c, h => by
    cases hx : p x with
    | false =>
      have hnil : (x :: rest).takeWhile p = [] := List.takeWhile_cons_of_neg (by simp [hx])
      rw [hnil]
      exact .failed ⟨0, satisfyChar_error (by rw [h, hnil]) 0⟩
    | true =>
      have hl := loop_satisfyChar p (TextCursor.after_advance_one h)
      rw [TextCursor.advance_advance, Nat.add_comm] at hl
      rw [List.takeWhile_cons_of_pos hx, List.length_cons]
      exact .round ⟨0, satisfyChar_ok h hx 0⟩ (TextCursor.offset_advance_one h) hl

theorem many_satisfyChar (p : Char → Bool) (c : TextCursor) :
    (Grammar.many (satisfyChar p) : TextGrammar [] (List Char)).Returns c
      ⟨.ok (c.after.takeWhile p), c.advance (c.after.takeWhile p).length⟩ :=
  Grammar.many_returns_iff.2 ⟨_, _, loop_satisfyChar p rfl, rfl⟩

theorem many1_satisfyChar (hx : p x = true) (h : c.after = x :: rest) :
    (Grammar.many1 (satisfyChar p) : TextGrammar [] (List Char)).Returns c
      ⟨.ok (c.after.takeWhile p), c.advance (c.after.takeWhile p).length⟩ := by
  obtain ⟨n, hn⟩ := many_satisfyChar p (c.advance 1)
  refine ⟨n, ?_⟩
  show ((satisfyChar p).parser n : Parser TextCursor Char).many1 n c = _
  rw [Parser.many1_eq, Parser.andThen_ok (satisfyChar_ok h hx n)]
  refine (Parser.map_some hn).trans ?_
  rw [TextCursor.after_advance_one h, TextCursor.advance_advance, h, List.takeWhile_cons_of_pos hx,
    List.length_cons, Nat.add_comm]
  rfl

theorem skipMany_skipChar (p : Char → Bool) (c : TextCursor) :
    (Grammar.skipMany (skipChar p) : TextGrammar [] Unit).Returns c
      ⟨.ok (), c.advance (c.after.takeWhile p).length⟩ := by
  obtain ⟨n, hn⟩ := many_satisfyChar p c
  refine ⟨n, ?_⟩
  have hmap := Parser.manyFrom_map (fun _ : Char => ())
    ((satisfyChar p).parser n : Parser TextCursor Char) n []
  have hskip : (((satisfyChar p).parser n : Parser TextCursor Char).map fun _ => ()).many n c = _ :=
    (congrFun hmap c).trans (Parser.map_some hn)
  show (((satisfyChar p).parser n : Parser TextCursor Char).map fun _ => ()).skipMany n c = _
  rw [Parser.skipMany_eq_many]
  exact Parser.map_some hskip

theorem parser_row_cons (n : Nat) (t : Char) (ts : List Char) :
    ((row (t :: ts)).parser n : Parser TextCursor (List Char)) =
      ((char t).parser n).andThen fun v => ((row ts).parser n).map (v :: ·) := by
  show (Parser.andThen _ _).map _ = _
  rw [Parser.andThen_map]
  congr 1
  funext v
  show (Parser.map _ _).map _ = (Parser.map _ _).map _
  rw [Parser.map_map, Parser.map_map]
  congr 1
  funext vs
  exact List.ofFn_succ

/-- A row of characters is read if and only if they come next: by induction on it. -/
theorem row_returns (n : Nat) : ∀ (ts : List Char) (c : TextCursor),
    (ts <+: c.after ∧ (row ts).parser n c = some ⟨.ok ts, c.advance ts.length⟩) ∨
    ¬ ts <+: c.after ∧ ∃ e d, (row ts).parser n c = some ⟨.error e, d⟩
  | [], c => .inl ⟨List.nil_prefix, rfl⟩
  | t :: ts, c => by
    rw [parser_row_cons]
    by_cases ht : [t] <+: c.after
    · obtain ⟨rest, hc⟩ := ht
      have hafter := TextCursor.after_advance_one hc.symm
      have hcons : t :: ts <+: c.after ↔ ts <+: (c.advance 1).after := by
        rw [hafter, ← hc]
        exact List.prefix_cons_inj t
      rw [Parser.andThen_ok (char_ok hc.symm n), hcons]
      obtain ⟨hp, hr⟩ | ⟨hp, e, d, hr⟩ := row_returns n ts (c.advance 1)
      · rw [Parser.map_some hr, TextCursor.advance_advance, List.length_cons, Nat.add_comm]
        exact .inl ⟨hp, rfl⟩
      · exact .inr ⟨hp, e, d, Parser.map_some hr⟩
    · have hr := Parser.andThen_eq_some_iff (f := fun v => ((row ts).parser n).map (v :: ·)).2
        (.inl ⟨_, c, char_error ht n, rfl⟩)
      exact .inr ⟨fun h => ht ((List.prefix_append [t] ts).trans h), _, c, hr⟩

end TextGrammar

/-! ## All at once -/

namespace Parser

variable {c : TextCursor} {p : Char → Bool} {nonempty : Bool}

theorem takeWhile_ok (h : c.after.takeWhile p = [] → nonempty = false) :
    takeWhile p nonempty c = some ⟨.ok (String.ofList (c.after.takeWhile p)),
      c.advance (c.after.takeWhile p).length⟩ := by
  unfold takeWhile
  refine if_neg fun hn => ?_
  obtain ⟨he, hn⟩ := Bool.and_eq_true_iff.1 hn
  rw [h (List.isEmpty_iff.1 he)] at hn
  cases hn

theorem takeWhile_error (h : c.after.takeWhile p = []) : takeWhile p true c =
    some ⟨.error (mismatch c "expected at least one matching char"), c⟩ := by
  unfold takeWhile
  rw [h]
  rfl

end Parser

theorem TextCursor.charwise (c : TextCursor) : Charwise c where
  takeWhile p := ⟨_, _, TextGrammar.many_satisfyChar p c, 0, Parser.takeWhile_ok fun _ => rfl⟩
  takeWhile1 p := by
    cases ht : c.after.takeWhile p with
    | nil =>
      have hmany : (Grammar.many1 (TextGrammar.satisfyChar p)).parser 0 c = _ :=
        Parser.andThen_eq_some_iff.2 (.inl ⟨_, c, TextGrammar.satisfyChar_error ht 0, rfl⟩)
      exact .inr ⟨_, _, ⟨0, hmany⟩, ⟨0, Parser.takeWhile_error ht⟩, Parser.mismatch_akin c _ _⟩
    | cons x taken =>
      obtain ⟨rest, hc⟩ : c.after.takeWhile p <+: c.after := List.takeWhile_prefix p
      have hx : p x = true := List.mem_takeWhile_imp (l := c.after) (by simp [ht])
      rw [ht] at hc
      have hmany := TextGrammar.many1_satisfyChar hx hc.symm
      exact .inl ⟨_, _, hmany, 0, Parser.takeWhile_ok fun hn => by simp [ht] at hn⟩
  skipWhile p := by
    refine ⟨_, TextGrammar.skipMany_skipChar p c, 0, ?_⟩
    exact Parser.map_some (Parser.takeWhile_ok fun _ => rfl)
  string t := by
    obtain ⟨hp, hr⟩ | ⟨hp, e, d, hr⟩ := TextGrammar.row_returns 0 t.toList c
    · exact .inl ⟨_, ⟨0, hr⟩, 0, if_pos (List.isPrefixOf_iff_prefix.2 hp)⟩
    · exact .inr ⟨e, _, d, ⟨0, hr⟩, 0, if_neg fun h => hp (List.isPrefixOf_iff_prefix.1 h)⟩

theorem TextCursor.Sound.charwise_toBytes {c : TextCursor} (h : c.Sound) : Charwise c.toBytes where
  takeWhile p := by
    obtain ⟨vs, d, hm, ht⟩ := c.charwise.takeWhile p
    exact ⟨vs, d.toBytes, (h.run hm).1, (h.run ht).1⟩
  takeWhile1 p := by
    obtain ⟨vs, d, hm, ht⟩ | ⟨e, e', hm, ht, ha⟩ := c.charwise.takeWhile1 p
    · exact .inl ⟨vs, d.toBytes, (h.run hm).1, (h.run ht).1⟩
    · exact .inr ⟨e, e', (h.run hm).1, (h.run ht).1, ha⟩
  skipWhile p := by
    obtain ⟨d, hm, ht⟩ := c.charwise.skipWhile p
    exact ⟨d.toBytes, (h.run hm).1, (h.run ht).1⟩
  string t := by
    obtain ⟨d, hm, ht⟩ | ⟨e, e', d, hm, ht⟩ := c.charwise.string t
    · exact .inl ⟨d.toBytes, (h.run hm).1, (h.run ht).1⟩
    · exact .inr ⟨e, e', d.toBytes, (h.run hm).1, (h.run ht).1⟩

/-- Wherever a cursor stands, the parsers for several characters come to what those for one come to;
also when the cursor is a number of bytes, so that a run of characters is cut off the text and its
lines are counted all at once. -/
theorem several_at_once :
    (∀ c : TextCursor, Charwise c) ∧
      ∀ (text : List Char) (c : TextCursor), Reachable .text (TextCursor.ofText text) c →
        Charwise (ByteCursor.mk text c.offset c.line false) := by
  refine ⟨TextCursor.charwise, fun text c hc => ?_⟩
  obtain ⟨hs, rfl⟩ := TextCursor.sound_of_reachable hc
  exact hs.charwise_toBytes

/-- Behind a character of two bytes: a line feed and another such character are taken at once, and
no digit is found. -/
theorem break_at_once :
    Reachable .text (TextCursor.ofText ['é', '\n', 'é', 'a'])
        (⟨['é'], ['\n', 'é', 'a'], 2, 1⟩ : TextCursor) ∧
      Charwise (ByteCursor.mk ['é', '\n', 'é', 'a'] 2 1 false) ∧
      (TextGrammar.takeWhile (· ≠ 'a') : TextGrammar [] String).Returns
        (ByteCursor.mk ['é', '\n', 'é', 'a'] 2 1 false)
        ⟨.ok "\né", ⟨['é', '\n', 'é', 'a'], 5, 2, false⟩⟩ ∧
      (TextGrammar.takeWhile1 Char.isDigit : TextGrammar [] String).Returns
        (ByteCursor.mk ['é', '\n', 'é', 'a'] 2 1 false)
        ⟨.error (.predicate 2 (Text.quoteChar '\n') "expected at least one matching char"),
          ⟨['é', '\n', 'é', 'a'], 2, 1, false⟩⟩ := by
  have hc : Reachable .text (TextCursor.ofText ['é', '\n', 'é', 'a'])
      (⟨['é'], ['\n', 'é', 'a'], 2, 1⟩ : TextCursor) := Reachable.start.read rfl
  exact ⟨hc, several_at_once.2 _ _ hc, ⟨0, rfl⟩, ⟨0, rfl⟩⟩

end Descent
