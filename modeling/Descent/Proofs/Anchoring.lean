import Descent.Grammar.Text
import Descent.Proofs.Automata
import Descent.Proofs.Course

/-!
# Matches at the cursor: `regex`

A pattern is put in a group behind a start anchor before it is compiled, so that a match begins at
the cursor. Main theorem `TextGrammar.regex_at_cursor`: of the engine it is enough to know that a
search finds the most preferred way at the first place that has one, and that a pattern which is
well formed by itself means the same in its group, but at the start of the text only. A pattern may
become well formed by being put in a group that it does not stay in. Its matches may then begin
further on (`TextGrammar.unbalanced_past_start`).
-/

namespace Descent

open Regex

/-- From `c` to `d` this text is consumed. -/
structure TextCursor.Passes (c : TextCursor) (passed : List Char) (d : TextCursor) : Prop where
  after : c.after = passed ++ d.after
  before : d.before = passed.reverse ++ c.before
  offset : d.offset = c.offset + Text.width passed

theorem TextCursor.passes_advance (c : TextCursor) (n : Nat) :
    c.Passes (c.after.take n) (c.advance n) where
  after := (List.take_append_drop n c.after).symm
  before := rfl
  offset := rfl

namespace Parser

variable {source v : String} {find : Finder} {c d : TextCursor} {e : ParseError}

theorem regex_isSome (source : String) (find : Finder) (c : TextCursor) :
    (Parser.regex source find c).isSome = true := by
  unfold Parser.regex
  split <;> rfl

theorem cursor_of_regex_error (h : Parser.regex source find c = some ⟨.error e, d⟩) : d = c := by
  unfold Parser.regex at h
  split at h <;> cases h
  rfl

/-- The cursor is at the end of the match that was found, and was at its start if nothing precedes
it. -/
theorem passes_of_regex (h : Parser.regex source find c = some ⟨.ok v, d⟩) :
    ∃ skipped, c.Passes (skipped ++ v.toList) d ∧
      ((∀ s ∈ find c.after, s.start = 0) → skipped = []) := by
  unfold Parser.regex at h
  split at h
  · next start stop hfind =>
    cases h
    refine ⟨(c.after.take stop).take start, ?_, fun hzero => ?_⟩
    · rw [String.toList_ofList, List.take_append_drop]
      exact c.passes_advance stop
    · obtain rfl : start = 0 := hzero _ hfind
      exact List.take_zero
  · cases h

end Parser

namespace TextGrammar

/-- The run of a pattern that was accepted ends. If it fails, the cursor stays where it was; if it
succeeds, the cursor is at the end of the match. The match is all that was consumed if the pattern
is well formed by itself, and not only in a group behind a start anchor. What patterns mean to the
engine is `meaning`, if they are well formed. -/
theorem regex_at_cursor {E : Engine} {meaning : String → Option Ways} {source : String}
    (leftmost_first : ∀ find, E.compile (tied source) = some find →
      ∃ V, meaning (tied source) = some V ∧ find = V.first)
    (tied_atStart : ∀ W V, meaning source = some W → meaning (tied source) = some V →
      V = W.atStart)
    {g : TextGrammar [] String} (hg : regex? E source = some g) (c : TextCursor) :
    ∃ r, g.Returns c r ∧ (∀ e, r.result = .error e → r.cursor = c) ∧
      ∀ v, r.result = .ok v → ∃ skipped, c.Passes (skipped ++ v.toList) r.cursor ∧
        ((meaning source).isSome → skipped = []) := by
  obtain ⟨find, hfind, rfl⟩ := Option.map_eq_some_iff.1 hg
  obtain ⟨⟨result, d⟩, hr⟩ :=
    Option.isSome_iff_exists.1 (Parser.regex_isSome source find c)
  refine ⟨⟨result, d⟩, ⟨0, hr⟩, ?_, ?_⟩
  · rintro e rfl
    exact Parser.cursor_of_regex_error hr
  · rintro v rfl
    obtain ⟨skipped, hpasses, hskipped⟩ := Parser.passes_of_regex hr
    refine ⟨skipped, hpasses, fun hs => hskipped ?_⟩
    obtain ⟨W, hW⟩ := Option.isSome_iff_exists.1 hs
    obtain ⟨V, hV, rfl⟩ := leftmost_first find hfind
    rw [tied_atStart W V hW hV, Ways.first_atStart]
    rintro s hs
    obtain ⟨k, -, rfl⟩ := Option.map_eq_some_iff.1 hs
    rfl

theorem returns_of_find? {E : Engine} {source : String} {c : TextCursor} {s : Span}
    (h : (E.anchored? source).bind (· c.after) = some s) :
    ∃ g : TextGrammar [] String, regex? E source = some g ∧
      g.Returns c ⟨.ok (String.ofList ((c.after.take s.stop).drop s.start)), c.advance s.stop⟩ := by
  obtain ⟨find, hfind, hs⟩ := Option.bind_eq_some_iff.1 h
  refine ⟨regex source find, by rw [regex?, hfind, Option.map_some], 0, ?_⟩
  show Parser.regex source find c = _
  unfold Parser.regex
  rw [hs]

/-- What patterns mean to the engine that follows automata. -/
def meaning? (source : String) : Option Ways := (Pattern.read? source).map Pattern.ways

/-- The second alternative, where the text begins with it. -/
theorem alternative_at_cursor : ∃ g, regex? Engine.automata "a|b" = some g ∧
    ∃ d, g.Returns (TextCursor.ofString "ba") ⟨.ok "b", d⟩ ∧
      (TextCursor.ofString "ba").Passes ['b'] d := by
  -- alternatives that are single characters are read as a set
  let p : Pattern := .set (.range 'a' 'b')
  have hplain : meaning? "a|b" = some p.ways := by
    rw [meaning?, show Pattern.read? "a|b" = some p by decide +kernel, Option.map_some]
  have htied : meaning? (tied "a|b") = some p.ways.atStart := by
    have hread : Pattern.read? (tied "a|b") = some (.cat (.look .textStart) (.group 1 p)) := by
      decide +kernel
    rw [meaning?, hread, Option.map_some, Pattern.ways_anchored]
    rfl
  have hreads : Engine.automata.Reads "a|b" p := Engine.automata_reads (by decide +kernel)
  have hfirst : ∀ find, Engine.automata.compile (tied "a|b") = some find →
      ∃ V, meaning? (tied "a|b") = some V ∧ find = V.first :=
    fun find hfind => ⟨_, htied, Option.some.inj (hfind.symm.trans hreads)⟩
  have hstart : ∀ W V, meaning? "a|b" = some W → meaning? (tied "a|b") = some V →
      V = W.atStart := by
    intro W V hW hV
    cases hplain.symm.trans hW
    exact Option.some.inj (hV.symm.trans htied)
  have hfind : (Engine.automata.anchored? "a|b").bind (· ['b', 'a']) = some ⟨0, 1⟩ := by
    decide +kernel
  obtain ⟨g, hg, hrun⟩ := returns_of_find? (c := .ofString "ba") hfind
  obtain ⟨r, hr, -, hok⟩ := regex_at_cursor hfirst hstart hg (.ofString "ba")
  obtain rfl := hr.unique hrun
  obtain ⟨skipped, hpasses, hskipped⟩ := hok _ rfl
  obtain rfl : skipped = [] := hskipped (by rw [hplain]; rfl)
  exact ⟨g, hg, _, hr, hpasses⟩

/-- A pattern with its brackets out of order is accepted. It leaves the group that ties it to the
start, and its second alternative matches further on. -/
theorem unbalanced_past_start : (Engine.automata.compile "a)|(b").isNone ∧
    ∃ g, regex? Engine.automata "a)|(b" = some g ∧
    ∃ d, g.Returns (TextCursor.ofString "xb") ⟨.ok "b", d⟩ ∧ d.offset = 2 ∧
      ¬ "b".toList <+: (TextCursor.ofString "xb").after := by
  have hfind : (Engine.automata.anchored? "a)|(b").bind (· ['x', 'b']) = some ⟨1, 2⟩ := by
    decide +kernel
  obtain ⟨g, hg, hrun⟩ := returns_of_find? (c := .ofString "xb") hfind
  exact ⟨by decide +kernel, g, hg, _, hrun, rfl, by decide +kernel⟩

end TextGrammar
end Descent
