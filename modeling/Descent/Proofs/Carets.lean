import Descent.Proofs.Positions
import Descent.Report

/-!
# Carets: `ErrorReport`

A report shows the line in which a failure stands (`Text.LineAround`) and, on the next line, a caret
under the place. Line numbers and columns count line feeds alone, while the line that is shown also
loses a carriage return at its end; so a caret between the two stands one column too far to the
right.

Main theorem `ParseError.caret_under_place`.
-/

namespace Descent

namespace Text

/-- How a line ends: with a line feed, which takes a carriage return before it along, or with the
text. -/
inductive LineEnd (line : List Char) : (stop later : List Char) → Prop
  | feed {later : List Char} : line.getLast? ≠ some '\r' → LineEnd line ['\n'] later
  | returnFeed {later : List Char} : LineEnd line ['\r', '\n'] later
  | text : LineEnd line [] []

/-- The line in which the boundary between `front` and `rest` lies: `earlier` lines come before it,
`head` lies between its start and the boundary, and `later` lines follow its end. -/
structure LineAround (front rest earlier head line stop later : List Char) : Prop where
  before : front = earlier ++ head
  whole : front ++ rest = earlier ++ line ++ stop ++ later
  start : LineStart earlier
  near : '\n' ∉ head
  unbroken : '\n' ∉ line
  ends : LineEnd line stop later

/-! ## Lines by number -/

theorem breaks_eq_zero {cs : List Char} (h : '\n' ∉ cs) : breaks cs = 0 := by
  induction cs with
  | nil => rfl
  | cons c cs ih =>
    rw [breaks_cons, if_neg (List.ne_of_not_mem_cons h).symm, ih (List.not_mem_of_not_mem_cons h)]

theorem splitLine_append {line : List Char} (h : '\n' ∉ line) (later : List Char) :
    splitLine (line ++ '\n' :: later) = (line, some later) := by
  induction line with
  | nil => rfl
  | cons c cs ih =>
    rw [List.cons_append, splitLine, if_neg (List.ne_of_not_mem_cons h).symm,
      ih (List.not_mem_of_not_mem_cons h)]

theorem splitLine_unbroken {line : List Char} (h : '\n' ∉ line) :
    splitLine line = (line, none) := by
  induction line with
  | nil => rfl
  | cons c cs ih =>
    rw [splitLine, if_neg (List.ne_of_not_mem_cons h).symm, ih (List.not_mem_of_not_mem_cons h)]

theorem line?_succ_break (n : Nat) (cs : List Char) : line? (n + 1) ('\n' :: cs) = line? n cs := rfl

theorem line?_succ_cons {c : Char} (hc : c ≠ '\n') (n : Nat) (cs : List Char) :
    line? (n + 1) (c :: cs) = line? (n + 1) cs := by
  show (splitLine (c :: cs)).2.bind (line? n) = (splitLine cs).2.bind (line? n)
  rw [splitLine, if_neg hc]

theorem LineStart.of_cons {c : Char} {earlier : List Char} (h : LineStart (c :: earlier)) :
    LineStart earlier ∧ (c = '\n' ∨ earlier ≠ []) := by
  rcases h with h | h
  · cases h
  · cases earlier with
    | nil => exact ⟨.inl rfl, .inl (Option.some.inj h)⟩
    | cons d earlier => exact ⟨.inr (by rwa [List.getLast?_cons_cons] at h), .inr (by simp)⟩

theorem LineStart.breaks_pos {earlier : List Char} (h : LineStart earlier) (hne : earlier ≠ []) :
    0 < breaks earlier := by
  obtain ⟨as, rfl⟩ := List.getLast?_eq_some_iff.1 (h.resolve_left hne)
  simp

/-- The line that begins after so many line feeds: by induction on what comes before it. -/
theorem line?_append (cs : List Char) : ∀ {earlier : List Char}, LineStart earlier →
    line? (breaks earlier) (earlier ++ cs) = line? 0 cs
  | [], _ => rfl
  | c :: earlier, h => by
    obtain ⟨hs, hc⟩ := h.of_cons
    have ih := line?_append cs hs
    by_cases hx : c = '\n'
    · rw [breaks_cons, if_pos hx, hx, Nat.add_comm, List.cons_append, line?_succ_break, ih]
    · obtain ⟨n, hn⟩ := Nat.exists_eq_add_of_lt (hs.breaks_pos (hc.resolve_left hx))
      rw [Nat.zero_add] at hn
      rw [breaks_cons, if_neg hx, Nat.zero_add, List.cons_append, hn, line?_succ_cons hx, ← hn, ih]

/-- What is shown of a text up to its first line feed: all but a carriage return there. -/
theorem line?_zero_break {line : List Char} (h : '\n' ∉ line) (later : List Char) :
    line? 0 (line ++ '\n' :: later) = some (dropReturn line) := by
  unfold line?
  rw [splitLine_append h]
  cases line <;> rfl

theorem line?_zero_unbroken {line : List Char} (h : '\n' ∉ line) :
    (line? 0 line).getD [] = line := by
  unfold line?
  rw [splitLine_unbroken h]
  cases line <;> rfl

/-- Of what comes before a line feed a carriage return at its end is not shown. -/
theorem dropReturn_cases (cs : List Char) : (cs.getLast? ≠ some '\r' ∧ dropReturn cs = cs) ∨
    ∃ line, cs = line ++ ['\r'] ∧ dropReturn cs = line := by
  unfold dropReturn
  by_cases h : cs.getLast? = some '\r'
  · obtain ⟨line, rfl⟩ := List.getLast?_eq_some_iff.1 h
    exact .inr ⟨line, rfl, by rw [if_pos h, List.dropLast_concat]⟩
  · exact .inl ⟨h, if_neg h⟩

/-- A boundary is before the last character or behind it. -/
theorem boundary_cases {head tail line : List Char} {x : Char} (h : head ++ tail = line ++ [x]) :
    (∃ more, line = head ++ more ∧ tail = more ++ [x]) ∨ head = line ++ [x] ∧ tail = [] := by
  rcases List.eq_nil_or_concat tail with rfl | ⟨more, y, rfl⟩
  · rw [List.append_nil] at h
    exact .inr ⟨h, rfl⟩
  · rw [List.concat_eq_append] at h ⊢
    rw [← List.append_assoc] at h
    obtain ⟨rfl, hx⟩ := List.append_inj' h rfl
    exact .inl ⟨more, rfl, by rw [hx]⟩

/-- The line around a boundary is the one that is shown for it. It goes on after the boundary,
unless that is between a carriage return and a line feed. -/
theorem lineAround_line? {earlier head : List Char} (hs : LineStart earlier) (hn : '\n' ∉ head)
    (rest : List Char) : ∃ line stop later,
      LineAround (earlier ++ head) rest earlier head line stop later ∧
      (line? (breaks (earlier ++ head)) (earlier ++ head ++ rest)).getD [] = line ∧
      ((∃ tail, line = head ++ tail ∧ rest = tail ++ stop ++ later) ∨
        head = line ++ ['\r'] ∧ stop = ['\r', '\n'] ∧ rest = '\n' :: later) := by
  rw [breaks_append, breaks_eq_zero hn, Nat.add_zero, List.append_assoc, line?_append _ hs]
  by_cases hr : '\n' ∈ rest
  · obtain ⟨tail, later, rfl, ht⟩ := List.eq_append_cons_of_mem hr
    have hraw : '\n' ∉ head ++ tail := by simp [hn, ht]
    rw [← List.append_assoc, line?_zero_break hraw, Option.getD_some]
    obtain ⟨hl, hd⟩ | ⟨line, hl, hd⟩ := dropReturn_cases (head ++ tail)
    · rw [hd]
      exact ⟨head ++ tail, ['\n'], later, ⟨rfl, by simp, hs, hn, hraw, .feed hl⟩, rfl,
        .inl ⟨tail, rfl, by simp⟩⟩
    · rw [hd]
      refine ⟨line, ['\r', '\n'], later, ⟨rfl, ?_, hs, hn, ?_, .returnFeed⟩, rfl, ?_⟩
      · rw [List.append_assoc, ← List.append_assoc head, hl]
        simp
      · rw [hl] at hraw
        simpa using hraw
      · obtain ⟨more, rfl, rfl⟩ | ⟨rfl, rfl⟩ := boundary_cases hl
        · exact .inl ⟨more, rfl, by simp⟩
        · exact .inr ⟨rfl, rfl, rfl⟩
  · have hraw : '\n' ∉ head ++ rest := by simp [hn, hr]
    rw [line?_zero_unbroken hraw]
    exact ⟨head ++ rest, [], [], ⟨rfl, by simp, hs, hn, hraw, .text⟩, rfl,
      .inl ⟨rest, rfl, by simp⟩⟩

/-- The boundary lies between a carriage return and the line feed after it. -/
def InLineEnd (front rest : List Char) : Prop :=
  front.getLast? = some '\r' ∧ rest.head? = some '\n'

/-- Between a carriage return and a line feed the line has ended already. -/
theorem LineAround.not_inLineEnd {front rest earlier head line stop later tail : List Char}
    (h : LineAround front rest earlier head line stop later) (hl : line = head ++ tail)
    (hr : rest = tail ++ stop ++ later) : ¬ InLineEnd front rest := by
  rintro ⟨hreturn, hfeed⟩
  obtain ⟨rfl, -, hs, -, hn, he⟩ := h
  have htail : tail = [] := by
    cases tail with
    | nil => rfl
    | cons c tail =>
      rw [hr] at hfeed
      cases hfeed
      exact absurd (by simp [hl]) hn
  subst htail
  rw [List.append_nil] at hl
  subst hl
  have hlast : line.getLast? = some '\r' := by
    cases line with
    | nil =>
      rw [List.append_nil] at hreturn
      rcases hs with rfl | hs
      · cases hreturn
      · cases hs.symm.trans hreturn
    | cons c line => rwa [List.getLast?_append_of_ne_nil _ (by simp)] at hreturn
  rw [hr] at hfeed
  cases he with
  | feed hne => exact hne hlast
  | returnFeed => cases hfeed
  | text => cases hfeed

end Text

/-! ## Reports -/

namespace ParseError

/-- The failure stands between `front` and `rest`. One without a place, or with one past the end of
the text, stands at the end. -/
def Stands (e : ParseError) (front rest : List Char) : Prop :=
  match e.offset? with
  | none => rest = []
  | some offset => offset = Text.width front ∨ Text.width (front ++ rest) < offset ∧ rest = []

theorem Stands.offset {e : ParseError} {front rest : List Char} (h : e.Stands front rest) :
    min (e.offset?.getD (Text.width (front ++ rest))) (Text.width (front ++ rest)) =
      Text.width front := by
  unfold Stands at h
  match e.offset?, h with
  | none, h => simp [h]
  | some _, .inl h => simp [h]
  | some offset, .inr ⟨hlt, hnil⟩ =>
    subst hnil
    rw [List.append_nil] at hlt ⊢
    exact Nat.min_eq_right (Nat.le_of_lt hlt)

end ParseError

open Text (blanks widestPadding)

namespace Report

/-- What stands before a line of the text: its number, counted from one, and a bar. -/
def gutter (row : Nat) : String := toString (row + 1) ++ " |"

/-- What stands before the caret: as much as before the line above it. -/
def margin (row : Nat) : String := blanks ((toString (row + 1)).length + 1) ++ "|"

theorem length_gutter (row : Nat) : (gutter row).length = (margin row).length := by
  simp only [gutter, margin, blanks, String.length_append, String.length_ofList,
    List.length_replicate]
  rfl

/-- The text of a report without colours. -/
theorem render_plain (r : Report) : r.render false =
    "parse error: " ++ r.message ++ "\n" ++
    blanks (toString (r.place.line + 1)).length ++ "--> " ++ r.file ++ ":" ++
      toString (r.place.line + 1) ++ ":" ++ toString (r.place.charCol + 1) ++ "\n" ++
    margin r.place.line ++ "\n" ++
    gutter r.place.line ++ r.line ++ "\n" ++
    margin r.place.line ++ blanks r.place.charCol ++ "^ " ++ r.remark ++ "\n" ++
    margin r.place.line := by
  have herror : "parse error: " = "parse error" ++ (":" ++ " ") := rfl
  have harrow : "--> " = "-->" ++ " " := rfl
  have hbar : " |" = " " ++ "|" := rfl
  have hcaret : "^ " = "^" ++ " " := rfl
  simp only [render, lines, Text.styled, String.intercalate_cons_cons, String.intercalate_singleton,
    gutter, margin, herror, harrow, hbar, hcaret, String.append_assoc, Bool.false_eq_true, if_false]
  rfl

end Report

namespace ParseError

open Report

/-- Where the counts fit into words of 32 bits, so do the line and the column as a report prints
them, counted from one. -/
theorem printed_place {front rest : List Char} (hw : Text.width (front ++ rest) + 1 < UInt32.size) :
    ((Position.Words.locate (front ++ rest) (Text.width front)).line + 1).toNat =
        (Position.locate (front ++ rest) (Text.width front)).line + 1 ∧
      ((Position.Words.locate (front ++ rest) (Text.width front)).charCol + 1).toNat =
        (Position.locate (front ++ rest) (Text.width front)).charCol + 1 := by
  have hholds := Position.Words.locate_holds (Nat.lt_of_succ_lt hw) (Text.width front)
  obtain ⟨hline, -, hcol⟩ := (Position.locate_boundary front rest).le_width
  have hfront : Text.width front ≤ Text.width (front ++ rest) := by
    rw [Text.width_append]
    exact Nat.le_add_right _ _
  refine ⟨?_, ?_⟩
  · rw [UInt32.toNat_add, hholds.line]
    exact Nat.mod_eq_of_lt (Nat.lt_of_le_of_lt (Nat.succ_le_succ (Nat.le_trans hline hfront)) hw)
  · rw [UInt32.toNat_add, hholds.charCol]
    exact Nat.mod_eq_of_lt (Nat.lt_of_le_of_lt (Nat.succ_le_succ (Nat.le_trans hcol hfront)) hw)

/-- In a report without colours the line of the text in which the failure stands comes without its
end, and the caret below it has as many characters before it as the place has, or as the whole line
has if the place is at its end. The text is short enough for its lines to be counted in words of 32
bits. -/
theorem caret_under_place {e : ParseError} {front rest : List Char} (he : e.Stands front rest)
    (hw : Text.width (front ++ rest) + 1 < UInt32.size) (file : String) :
    ∃ earlier head line stop later,
      Text.LineAround front rest earlier head line stop later ∧
      (e.report file (front ++ rest)).place.charCol = head.length ∧
      ((Position.Words.locate (front ++ rest) (Text.width front)).line + 1).toNat =
        Text.breaks front + 1 ∧
      ((Position.Words.locate (front ++ rest) (Text.width front)).charCol + 1).toNat =
        head.length + 1 ∧
      (e.report file (front ++ rest)).shown? false =
        (if head.length ≤ widestPadding then some (
          "parse error: " ++ e.message ++ "\n" ++
          blanks (toString (Text.breaks front + 1)).length ++ "--> " ++ file ++ ":" ++
            toString (Text.breaks front + 1) ++ ":" ++ toString (head.length + 1) ++ "\n" ++
          margin (Text.breaks front) ++ "\n" ++
          gutter (Text.breaks front) ++ String.ofList line ++ "\n" ++
          margin (Text.breaks front) ++ blanks head.length ++ "^ " ++ e.remark ++ "\n" ++
          margin (Text.breaks front))
        else none) ∧
      (gutter (Text.breaks front)).length = (margin (Text.breaks front)).length ∧
      (¬ Text.InLineEnd front rest → head.length ≤ line.length ∧
        ∃ tail, line = head ++ tail ∧ rest = tail ++ stop ++ later) ∧
      (Text.InLineEnd front rest → head = line ++ ['\r'] ∧ rest = '\n' :: later) := by
  have hplace : (e.report file (front ++ rest)).place =
      Position.locate (front ++ rest) (Text.width front) :=
    congrArg (Position.locate (front ++ rest)) he.offset
  have hcounts := Position.locate_boundary front rest
  obtain ⟨hnumber, hcolumn⟩ := printed_place hw
  rw [← hplace] at hcounts hnumber hcolumn
  obtain ⟨-, hrow, earlier, head, rfl, hs, hn, -, hcol⟩ := hcounts
  obtain ⟨line, stop, later, haround, hline, hcases⟩ := Text.lineAround_line? hs hn rest
  have hshown : (e.report file (earlier ++ head ++ rest)).line = String.ofList line := by
    show String.ofList
      ((Text.line? (e.report file (earlier ++ head ++ rest)).place.line _).getD []) = _
    rw [hrow, hline]
  -- the line is shown up to its end, so it ends before the boundary only inside that end
  refine ⟨earlier, head, line, stop, later, haround, hcol, hnumber.trans (by rw [hrow]),
    hcolumn.trans (by rw [hcol]), ?_, length_gutter _, fun hne => ?_, fun hin => ?_⟩
  · unfold shown?
    rw [render_plain, hcol, hrow, hshown]
    rfl
  · obtain ⟨tail, hl, hr⟩ | ⟨hl, -, hr⟩ := hcases
    · refine ⟨?_, tail, hl, hr⟩
      rw [hl, List.length_append]
      exact Nat.le_add_right _ _
    · refine absurd ⟨?_, by rw [hr]; rfl⟩ hne
      rw [hl, ← List.append_assoc]
      exact List.getLast?_concat
  · obtain ⟨tail, hl, hr⟩ | ⟨hl, -, hr⟩ := hcases
    · exact absurd hin (haround.not_inLineEnd hl hr)
    · exact ⟨hl, hr⟩

/-- On the second line, behind two characters of which one has two bytes. -/
theorem caret_under_third :
    (predicate 7 "'d'" "expected 'e'").Stands ['a', 'b', '\r', '\n', 'c', 'ñ'] ['d'] ∧
      Text.width (['a', 'b', '\r', '\n', 'c', 'ñ'] ++ ['d']) + 1 < UInt32.size ∧
      ¬ Text.InLineEnd ['a', 'b', '\r', '\n', 'c', 'ñ'] ['d'] ∧
      ((predicate 7 "'d'" "expected 'e'").report "f"
        ['a', 'b', '\r', '\n', 'c', 'ñ', 'd']).shown? false =
        some "parse error: expected 'e', found 'd'\n --> f:2:3\n  |\n2 |cñd\n  |  ^ here\n  |" ∧
      ∃ earlier head line stop later,
        Text.LineAround ['a', 'b', '\r', '\n', 'c', 'ñ'] ['d'] earlier head line stop later ∧
        ((predicate 7 "'d'" "expected 'e'").report "f"
          ['a', 'b', '\r', '\n', 'c', 'ñ', 'd']).place.charCol = head.length ∧
        head.length ≤ line.length := by
  have hs : (predicate 7 "'d'" "expected 'e'").Stands ['a', 'b', '\r', '\n', 'c', 'ñ'] ['d'] :=
    .inl rfl
  have hne : ¬ Text.InLineEnd ['a', 'b', '\r', '\n', 'c', 'ñ'] ['d'] := by
    rintro ⟨h, -⟩
    cases h
  have hw : Text.width (['a', 'b', '\r', '\n', 'c', 'ñ'] ++ ['d']) + 1 < UInt32.size := by decide
  obtain ⟨earlier, head, line, stop, later, ha, hc, -, -, -, -, hle, -⟩ :=
    caret_under_place hs hw "f"
  exact ⟨hs, hw, hne, rfl, earlier, head, line, stop, later, ha, hc, (hle hne).1⟩

/-- Between the two characters at the end of a line the column is past what is shown of the line,
and the caret is not directly behind it. -/
theorem caret_past_line :
    (failure 2 "no").Stands ['a', '\r'] ['\n', 'b'] ∧
      ((failure 2 "no").report "f" ['a', '\r', '\n', 'b']).line = "a" ∧
      ¬ ((failure 2 "no").report "f" ['a', '\r', '\n', 'b']).place.charCol ≤ "a".length ∧
      ((failure 2 "no").report "f" ['a', '\r', '\n', 'b']).shown? false =
        some "parse error: no\n --> f:1:3\n  |\n1 |a\n  |  ^ here\n  |" :=
  ⟨.inl rfl, rfl, by decide, rfl⟩

end ParseError

end Descent
