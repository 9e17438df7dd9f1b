import Descent.Proofs.Charwise
import Descent.Proofs.ErrorTrees

/-!
# What a run has read: `consumed` / `location` / `take`

From where a run begins to where it succeeds lies the text it has read, whatever it has looked at
and gone back over in between. `TextGrammar.consumed` gives this text, `TextGrammar.location` its
two ends, and `TextGrammar.take` reads so many characters of it.

Main theorem `TextGrammar.consumed_exact`.
-/

namespace Descent

/-! ## Judged runs -/

section

variable {σ ε α β : Type} {S : Signature} [Cursor σ ε] [Element ε] [Interprets S σ]

theorem Parser.judge_error {f : σ → α → σ → Except ParseError β} {p : Parser σ α} {c d : σ}
    {e : ParseError} (h : p c = some ⟨.error e, d⟩) : p.judge f c = some ⟨.error e, d⟩ := by
  unfold judge
  rw [h]

theorem Parser.judge_ok {f : σ → α → σ → Except ParseError β} {p : Parser σ α} {c d : σ}
    {v : α} (h : p c = some ⟨.ok v, d⟩) : p.judge f c = some ⟨f c v d, d⟩ := by
  unfold judge
  rw [h]

theorem Parser.judge_none {f : σ → α → σ → Except ParseError β} {p : Parser σ α} {c : σ}
    (h : p c = none) : p.judge f c = none := by
  unfold judge
  rw [h]

/-- What is told of two runs in order, if it is put together from what is told of each. -/
theorem Parser.judge_pair {γ δ κ : Type} {p : Parser σ α} {q : Parser σ β} {c : σ}
    {f : σ → α × β → σ → κ} {g : σ → α → σ → γ} {h : σ → β → σ → δ} {k : γ × δ → κ}
    (hk : ∀ {v w b d}, p c = some ⟨.ok v, b⟩ → q b = some ⟨.ok w, d⟩ →
      f c (v, w) d = k (g c v b, h b w d)) :
    (p.pair q).judge (fun c v d => .ok (f c v d)) c =
      ((p.judge fun c v d => .ok (g c v d)).pair (q.judge fun c v d => .ok (h c v d))).map k c := by
  simp only [judge, map, pair, andThen]
  match hp : p c with
  | none => rfl
  | some ⟨.error e, b⟩ => rfl
  | some ⟨.ok v, b⟩ =>
    match hq : q b with
    | none => simp only [hq]
    | some ⟨.error e, d⟩ => simp only [hq]
    | some ⟨.ok w, d⟩ => simp only [hq, pure, hk hp hq]

/-- A run of two grammars in order is a run of the first and then of the second. -/
theorem Grammar.parser_pair (n : Nat) (p : Grammar ε S [] α) (q : Grammar ε S [] β) :
    ((pair p q).parser n : Parser σ (α × β)) = (p.parser n).pair (q.parser n) := by
  show Parser.map _ ((p.parser n).andThen fun _ => Parser.map _ (Parser.map _ _)) = _
  unfold Parser.pair
  rw [Parser.andThen_map]
  congr 1
  funext v
  rw [Parser.map_map, Parser.map_map]
  rfl

end

namespace TextCursor

variable {α β : Type} {c d : TextCursor} {v : α} {n k : Nat} {p : TextGrammar [] α}
  {q : TextGrammar [] β}

theorem Sound.slice?_advance (h : c.Sound) (k : Nat) :
    (c.advance k).slice? c.offset (c.advance k).offset = some (String.ofList (c.after.take k)) := by
  unfold slice?
  rw [text_advance]
  exact congrArg (Option.map String.ofList) (h.slice_after k)

/-- Past all that lies ahead is the end of the text. -/
theorem Sound.offset_end (h : c.Sound) :
    (c.advance c.after.length).offset = Text.width c.text := by
  have ha := (h.advance c.after.length).offset_of_nil (by simp [TextCursor.advance])
  rwa [text_advance] at ha

theorem ofList_take_add (c : TextCursor) (j k : Nat) : String.ofList (c.after.take (j + k)) =
    String.ofList (c.after.take j) ++ String.ofList ((c.advance j).after.take k) := by
  rw [← String.ofList_append, List.take_add]
  rfl

/-- A run over `k` characters has consumed these. -/
theorem Sound.consumed_ok (h : c.Sound) (hp : p.parser n c = some ⟨.ok v, c.advance k⟩) :
    (TextGrammar.consumed p).parser n c =
      some ⟨.ok (String.ofList (c.after.take k)), c.advance k⟩ := by
  have hj : (TextGrammar.consumed p).parser n c =
      some ⟨.ok (((c.advance k).slice? c.offset (c.advance k).offset).getD ""), c.advance k⟩ :=
    Parser.judge_ok hp
  rwa [h.slice?_advance k] at hj

/-- What two runs in order have consumed is what the first and then the second has, and they fail
alike. -/
theorem Sound.consumed_pair (h : c.Sound) (n : Nat) (p : TextGrammar [] α) (q : TextGrammar [] β) :
    (TextGrammar.consumed (.pair p q)).parser n c =
      (Grammar.map (fun ab : String × String => ab.1 ++ ab.2)
        (.pair (TextGrammar.consumed p) (TextGrammar.consumed q))).parser n c := by
  show Parser.judge _ (Grammar.parser n (.pair p q)) c =
    Parser.map _ (Grammar.parser n (.pair (TextGrammar.consumed p) (TextGrammar.consumed q))) c
  rw [Grammar.parser_pair, Grammar.parser_pair]
  refine Parser.judge_pair fun {_ _ b d} hp hq => ?_
  obtain ⟨j, rfl⟩ : ∃ j, b = c.advance j := (h.run ⟨n, hp⟩).2
  obtain ⟨k, rfl⟩ : ∃ k, d = (c.advance j).advance k := ((h.advance j).run ⟨n, hq⟩).2
  have hs := h.slice?_advance (j + k)
  rw [← advance_advance, ofList_take_add] at hs
  rw [hs, h.slice?_advance j, (h.advance j).slice?_advance k]
  rfl

end TextCursor

namespace Parser

theorem count_of_le {σ α : Type} {size n : Nat} (h : size * n ≤ largestAllocation)
    (p : Parser σ α) : p.count size n = p.countFrom n [] :=
  if_pos h

/-- There is no result where more memory is needed than can be asked for. -/
theorem count_of_lt {σ α : Type} {size n : Nat} (h : largestAllocation < size * n)
    (p : Parser σ α) (c : σ) : p.count size n c = none :=
  congrFun (if_neg (Nat.not_le.2 h)) c

/-- Any character, so many times: the next ones, or all there are and then the end of the text. -/
theorem countFrom_any : ∀ (n : Nat) (values : List Char) (c : TextCursor),
    countFrom any n values c = some
      (if n ≤ c.after.length then ⟨.ok (values.reverse ++ c.after.take n), c.advance n⟩
      else ⟨.error (.endOfInput (c.advance c.after.length).offset), c.advance c.after.length⟩)
  | 0, values, c => by
    rw [if_pos (Nat.zero_le _), List.take_zero, List.append_nil]
    rfl
  | n + 1, values, c => by
    rw [countFrom]
    cases h : c.after with
    | nil =>
      rw [andThen_eq_some_iff]
      exact .inl ⟨_, c, any_end h, rfl⟩
    | cons x rest =>
      rw [andThen_ok (any_next h), countFrom_any n, TextCursor.after_advance_one h]
      simp only [TextCursor.advance_advance, List.length_cons, Nat.succ_le_succ_iff,
        List.take_succ_cons, List.reverse_cons, List.append_assoc, List.cons_append,
        List.nil_append, Nat.add_comm 1]

end Parser

namespace TextGrammar

variable {c : TextCursor} {n : Nat}

theorem take_ok (h : c.Sound) (hs : 4 * n ≤ Parser.largestAllocation) (hn : n ≤ c.after.length) :
    (take n : TextGrammar [] String).Returns c
      ⟨.ok (String.ofList (c.after.take n)), c.advance n⟩ := by
  refine ⟨0, h.consumed_ok (v := c.after.take n) ?_⟩
  refine (congrFun (Parser.count_of_le hs _) c).trans ?_
  exact (Parser.countFrom_any n [] c).trans (congrArg some (if_pos hn))

theorem take_error (h : c.Sound) (hs : 4 * n ≤ Parser.largestAllocation)
    (hn : c.after.length < n) : (take n : TextGrammar [] String).Returns c
      ⟨.error (.endOfInput (Text.width c.text)), c.advance c.after.length⟩ := by
  rw [← h.offset_end]
  refine ⟨0, Parser.judge_error ?_⟩
  refine (congrFun (Parser.count_of_le hs _) c).trans ?_
  exact (Parser.countFrom_any n [] c).trans (congrArg some (if_neg (Nat.not_le.2 hn)))

/-- Where the characters asked for are more than there can be room for, nothing comes out. -/
theorem take_never (hs : Parser.largestAllocation < 4 * n) (r : Reply TextCursor String) :
    ¬ (take n : TextGrammar [] String).Returns c r := by
  rintro ⟨m, hm⟩
  cases (Parser.judge_none (Parser.count_of_lt hs _ c)).symm.trans hm

/-- From where a run begins to where it succeeds lies what was read: it can be cut off the text, it
comes before what remains, and `consumed` and `location` tell it and its two ends. What two runs in
order have consumed comes in order, and characters are taken by number or missing, as many as there
can be room for. -/
theorem consumed_exact {text : List Char} {c : TextCursor}
    (hc : Reachable .text (TextCursor.ofText text) c) :
    (∀ {α : Type} (p : TextGrammar [] α) (v : α) (d : TextCursor), p.Returns c ⟨.ok v, d⟩ →
      ∃ excerpt : String, Text.slice? text c.offset d.offset = some excerpt.toList ∧
        d.slice? c.offset d.offset = some excerpt ∧ c.remaining = excerpt ++ d.remaining ∧
        (consumed p).Returns c ⟨.ok excerpt, d⟩ ∧
        ∀ {β : Type} (f : Nat → Nat → α → β),
          (location f p).Returns c ⟨.ok (f c.offset d.offset v), d⟩) ∧
    (∀ {α β : Type} (p : TextGrammar [] α) (q : TextGrammar [] β) (r : Reply TextCursor String),
      (consumed (.pair p q)).Returns c r ↔
        (Grammar.map (fun ab : String × String => ab.1 ++ ab.2)
          (.pair (consumed p) (consumed q))).Returns c r) ∧
    ∀ n : Nat, 4 * n ≤ Parser.largestAllocation →
      (n ≤ c.after.length → ∃ d, d.after = c.after.drop n ∧
        (take n : TextGrammar [] String).Returns c ⟨.ok (String.ofList (c.after.take n)), d⟩) ∧
      (c.after.length < n → ∃ d, d.after = [] ∧ d.offset = Text.width text ∧
        (take n : TextGrammar [] String).Returns c
          ⟨.error (.endOfInput (Text.width text)), d⟩) := by
  obtain ⟨hs, rfl⟩ := TextCursor.sound_of_reachable hc
  refine ⟨fun p v d hp => ?_, fun p q r => ?_, fun n hroom => ⟨fun hn => ?_, fun hn => ?_⟩⟩
  · obtain ⟨k, rfl⟩ : ∃ k, d = c.advance k := (hs.run hp).2
    obtain ⟨m, hm⟩ := hp
    refine ⟨String.ofList (c.after.take k), ?_, hs.slice?_advance k, ?_, ⟨m, hs.consumed_ok hm⟩,
      fun f => ⟨m, Parser.judge_ok hm⟩⟩
    · rw [String.toList_ofList]
      exact hs.slice_after k
    · unfold TextCursor.remaining
      rw [← String.ofList_append]
      exact congrArg String.ofList (List.take_append_drop k c.after).symm
  · exact exists_congr fun n => by rw [hs.consumed_pair n p q]
  · exact ⟨_, rfl, take_ok hs hroom hn⟩
  · exact ⟨_, List.drop_length, hs.offset_end, take_error hs hroom hn⟩

/-- What has been read and taken back again is not consumed, and of three characters two can be
taken and five cannot. -/
theorem attempt_not_consumed :
    Reachable .text (TextCursor.ofText ['é', '\n', 'a']) (TextCursor.ofText ['é', '\n', 'a']) ∧
      (.right (.opt (.attempt (.right (char 'é') (char 'x')))) (string "é\n") :
        TextGrammar [] String).Returns (TextCursor.ofText ['é', '\n', 'a'])
        ⟨.ok "é\n", ⟨['\n', 'é'], ['a'], 3, 2⟩⟩ ∧
      (∃ excerpt : String, Text.slice? ['é', '\n', 'a'] 0 3 = some excerpt.toList ∧
        (consumed (.right (.opt (.attempt (.right (char 'é') (char 'x')))) (string "é\n")) :
          TextGrammar [] String).Returns (TextCursor.ofText ['é', '\n', 'a'])
          ⟨.ok excerpt, ⟨['\n', 'é'], ['a'], 3, 2⟩⟩) ∧
      (∃ d, d.after = ['a'] ∧ (take 2 : TextGrammar [] String).Returns
        (TextCursor.ofText ['é', '\n', 'a']) ⟨.ok "é\n", d⟩) ∧
      ∃ d, d.after = [] ∧ d.offset = 4 ∧ (take 5 : TextGrammar [] String).Returns
        (TextCursor.ofText ['é', '\n', 'a']) ⟨.error (.endOfInput 4), d⟩ := by
  have hp : (.right (.opt (.attempt (.right (char 'é') (char 'x')))) (string "é\n") :
      TextGrammar [] String).Returns (TextCursor.ofText ['é', '\n', 'a'])
      ⟨.ok "é\n", ⟨['\n', 'é'], ['a'], 3, 2⟩⟩ := ⟨0, rfl⟩
  have hc : Reachable .text (TextCursor.ofText ['é', '\n', 'a']) _ := .start
  have h := consumed_exact hc
  obtain ⟨excerpt, hs, -, -, hr, -⟩ := h.1 _ _ _ hp
  exact ⟨hc, hp, ⟨excerpt, hs, hr⟩, (h.2.2 2 (by decide)).1 (by decide),
    (h.2.2 5 (by decide)).2 (by decide)⟩

/-- Of two characters, more are asked for than there can be room for. Neither is this the end of the
text, nor is anything taken. -/
theorem take_without_room :
    Reachable .text (TextCursor.ofText ['a', 'b']) (TextCursor.ofText ['a', 'b']) ∧
      (TextCursor.ofText ['a', 'b']).after.length < Parser.largestAllocation ∧
      ∀ r, ¬ (take Parser.largestAllocation : TextGrammar [] String).Returns
        (TextCursor.ofText ['a', 'b']) r :=
  ⟨.start, by decide, take_never (by decide)⟩

end TextGrammar

end Descent
