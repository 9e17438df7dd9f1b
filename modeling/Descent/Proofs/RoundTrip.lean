import Descent.Proofs.JsonTexts

/-!
# Written values are read back: `Json::write`

The written form of a value has line feeds, indentation and spaces where the grammar allows any
white space, so that it is a text of the value by the rules of `Json.Value`. Main theorem
`Json.parse_render`: if what stands between quotes can be there, and numbers are read as they are
shown, then the grammar reads the value back, at whatever level it was written.
-/

namespace Descent.Json

open Regex Regex.Pattern TextGrammar

variable {ν α : Type} {showNumber : ν → String} {ofText : String → ν}

/-! ## Strings -/

/-- What may stand between quotes: characters that are neither quotes nor backslashes, and pairs of
a backslash and a character that does not end the line. -/
inductive Quotable : List Char → Prop
  | nil : Quotable []
  | plain {x : Char} {cs : List Char} : x ≠ '"' → x ≠ '\\' → Quotable cs → Quotable (x :: cs)
  | pair {x : Char} {cs : List Char} : x ≠ '\n' → Quotable cs → Quotable ('\\' :: x :: cs)

theorem Quotable.parts {cs : List Char} (h : Quotable cs) :
    ∃ us : List (List Char), (∀ u ∈ us, stringPart.Matches u) ∧ us.flatten = cs := by
  induction h with
  | nil => exact ⟨[], nofun, rfl⟩
  | @plain x cs hq hb _ ih =>
    obtain ⟨us, hus, rfl⟩ := ih
    have hx := CharSet.has_compl (s := CharSet.ofList ['"', '\\']) ['"', '\\'] rfl (by decide)
      (by simpa using ⟨hq, hb⟩)
    have hpart : stringPart.Matches [x] := .inl ⟨x, hx, rfl⟩
    exact ⟨[x] :: us, List.forall_mem_cons.2 ⟨hpart, hus⟩, rfl⟩
  | @pair x cs hn _ ih =>
    obtain ⟨us, hus, rfl⟩ := ih
    have hx := CharSet.has_compl (s := CharSet.single '\n') ['\n'] rfl (by decide)
      (by simpa using hn)
    have hpart : stringPart.Matches ['\\', x] := .inr ⟨['\\'], [x], rfl, ⟨x, hx, rfl⟩, rfl⟩
    exact ⟨['\\', x] :: us, List.forall_mem_cons.2 ⟨hpart, hus⟩, rfl⟩

theorem toList_quoted (s : String) : (quoted s).toList = '"' :: (s.toList ++ ['"']) := by
  simp [quoted]

theorem matches_quoted {s : String} (h : Quotable s.toList) :
    stringPattern.Matches (quoted s).toList := by
  obtain ⟨us, hus, hs⟩ := h.parts
  have hparts : (Pattern.repeat 0 none true (.group 1 stringPart)).Matches s.toList :=
    ⟨us, Nat.zero_le _, nofun, hus, hs⟩
  rw [toList_quoted]
  exact ⟨['"'], _, rfl, ⟨s.toList, ['"'], hparts, rfl, rfl⟩, rfl⟩

theorem unquoted_quoted (s : String) : unquoted (quoted s) = s := by
  simp [unquoted, toList_quoted]

/-! ## Lines -/

/-- The lines of several values, with a comma at the end of each but the last. -/
def lines? (f : α → Option String) (level : Nat) : List α → Option String
  | [] => some ""
  | v :: vs => do
    let shown ← f v
    let rest ← lines? f level vs
    return (← indentation? level) ++ shown ++ (if vs.isEmpty then "" else ",") ++ "\n" ++ rest

theorem renderElems?_eq (level : Nat) (vs : List (Json ν)) :
    renderElems? showNumber level vs = lines? (render? showNumber level) level vs := by
  induction vs with
  | nil => rfl
  | cons v vs ih => rw [renderElems?, lines?, ih]

/-- The line of an entry. -/
def renderMember? (showNumber : ν → String) (level : Nat) (e : String × Json ν) : Option String :=
  (render? showNumber level e.2).map (quoted e.1 ++ ": " ++ ·)

theorem renderEntries?_eq (level : Nat) (es : List (String × Json ν)) :
    renderEntries? showNumber level es = lines? (renderMember? showNumber level) level es := by
  induction es with
  | nil => rfl
  | cons e es ih =>
    rw [renderEntries?, lines?, ih, renderMember?]
    cases render? showNumber level e.2 <;> simp [String.append_assoc]

/-- The written form of a container that holds something, from its lines. -/
def container? (opening closing : String) (level : Nat) (lines : Option String) :
    Option String := do
  let shown ← lines
  return opening ++ "\n" ++ shown ++ (← indentation? level) ++ closing

theorem render?_array (level : Nat) (v : Json ν) (vs : List (Json ν)) :
    render? showNumber level (array (v :: vs)) = container? "[" "]" level
      (lines? (render? showNumber (level + 1)) (level + 1) (v :: vs)) := by
  rw [render?, renderElems?_eq]
  rfl

theorem render?_object (level : Nat) (e : String × Json ν) (es : List (String × Json ν)) :
    render? showNumber level (object (e :: es)) = container? "\x7b" "\x7d" level
      (lines? (renderMember? showNumber (level + 1)) (level + 1) (e :: es)) := by
  rw [render?, renderEntries?_eq]
  rfl

/-- The parts of a first line and of what follows it. -/
theorem lines?_cons {f : α → Option String} {level : Nat} {v : α} {vs : List α} {text : String} :
    lines? f level (v :: vs) = some text ↔ ∃ indent shown rest, indentation? level = some indent ∧
      f v = some shown ∧ lines? f level vs = some rest ∧
        indent ++ shown ++ (if vs.isEmpty then "" else ",") ++ "\n" ++ rest = text := by
  simp only [lines?, Option.bind_eq_bind, Option.bind_eq_some_iff, Option.pure_def,
    Option.some.injEq]
  constructor
  · rintro ⟨shown, hv, rest, hvs, indent, hi, rfl⟩
    exact ⟨indent, shown, rest, hi, hv, hvs, rfl⟩
  · rintro ⟨indent, shown, rest, hi, hv, hvs, rfl⟩
    exact ⟨shown, hv, rest, hvs, indent, hi, rfl⟩

theorem blank_indentation {level : Nat} {indent : String} (h : indentation? level = some indent) :
    ∀ x ∈ indent.toList, Text.isBlank x = true := by
  unfold indentation? Text.padding? at h
  split at h
  · cases h
    intro x hx
    rw [Text.blanks, String.toList_ofList] at hx
    obtain rfl := List.eq_of_mem_replicate hx
    decide +kernel
  · cases h

theorem blank_newline : ∀ x ∈ "\n".toList, Text.isBlank x = true :=
  List.all_eq_true.1 (by decide +kernel)

theorem blank_space : ∀ x ∈ " ".toList, Text.isBlank x = true :=
  List.all_eq_true.1 (by decide +kernel)

/-- A line holds what its value is read from, whatever white space follows it. -/
theorem many_of_lines {L : List Char → α → List Char → Prop} {f : α → Option String} {level : Nat}
    {v : α} {vs : List α} {text : String} (htext : lines? f level (v :: vs) = some text)
    (h : ∀ w ∈ v :: vs, ∀ {shown : String}, f w = some shown → ∀ {u t' : List Char}, Blanks u t' →
      L (shown.toList ++ u) w t')
    {rest t' : List Char} (hrest : Blanks rest t') :
    ∃ u x, Blanks (text.toList ++ rest) u ∧ L u v x ∧
      Many (fun t v t' => ∃ u, Lexeme "," t u ∧ L u v t') x vs t' := by
  induction vs generalizing v text with
  | nil =>
    obtain ⟨indent, shown, _, hi, hshown, hnil, rfl⟩ := lines?_cons.1 htext
    cases hnil
    have hindent {t : List Char} := (Blanks.refl t).append (blank_indentation hi)
    have hv := h v (by simp) hshown (hrest.append blank_newline)
    exact ⟨_, t', by simpa using hindent, hv, .nil⟩
  | cons w ws ih =>
    obtain ⟨indent, shown, more, hi, hshown, hmore, rfl⟩ := lines?_cons.1 htext
    have hindent {t : List Char} := (Blanks.refl t).append (blank_indentation hi)
    obtain ⟨u, x, hu, hw, hws⟩ := ih hmore fun w hw => h w (.tail _ hw)
    have hnext : Lexeme "," (",".toList ++ ("\n".toList ++ _)) u :=
      ⟨_, rfl, hu.append blank_newline⟩
    exact ⟨_, _, by simpa using hindent, h v (by simp) hshown (.refl _), .cons ⟨u, hnext, hw⟩ hws⟩

/-- Between the brackets of a container stands what its values are read from. -/
theorem many_of_container? {L : List Char → α → List Char → Prop} {f : α → Option String}
    {opening closing : String} {level : Nat} {v : α} {vs : List α} {text : String}
    (htext : container? opening closing level (lines? f (level + 1) (v :: vs)) = some text)
    (h : ∀ w ∈ v :: vs, ∀ {shown : String}, f w = some shown → ∀ {u t' : List Char}, Blanks u t' →
      L (shown.toList ++ u) w t') (u : List Char) :
    ∃ t x, Lexeme opening (text.toList ++ u) t ∧ L t v x ∧
      Many (fun t v t' => ∃ u, Lexeme "," t u ∧ L u v t') x vs (closing.toList ++ u) := by
  obtain ⟨shown, hshown, htext⟩ := Option.bind_eq_some_iff.1 htext
  obtain ⟨indent, hindent, htext⟩ := Option.bind_eq_some_iff.1 htext
  cases htext
  have hclosing := (Blanks.refl (closing.toList ++ u)).append (blank_indentation hindent)
  obtain ⟨t, x, ht, hv, hvs⟩ := many_of_lines hshown h hclosing
  exact ⟨t, x, ⟨_, by simp, ht.append blank_newline⟩, hv, hvs⟩

/-! ## Depths -/

mutual
def depth : Json ν → Nat
  | array (v :: vs) => elemsDepth (v :: vs) + 1
  | object (e :: es) => entriesDepth (e :: es) + 1
  | null | bool _ | number _ | string _ | array [] | object [] => 0

def elemsDepth : List (Json ν) → Nat
  | [] => 0
  | v :: vs => max v.depth (elemsDepth vs)

def entriesDepth : List (String × Json ν) → Nat
  | [] => 0
  | (_, v) :: es => max v.depth (entriesDepth es)
end

theorem isSome_indentation? (level : Nat) :
    (indentation? level).isSome = true ↔ 2 * level ≤ Text.widestPadding := by
  unfold indentation? Text.padding?
  split <;> simp_all

theorem isSome_lines?_cons (f : α → Option String) (level : Nat) (v : α) (vs : List α) :
    (lines? f level (v :: vs)).isSome = true ↔
      2 * level ≤ Text.widestPadding ∧ (f v).isSome = true ∧ (lines? f level vs).isSome = true := by
  rw [← isSome_indentation?, lines?]
  cases f v <;> cases lines? f level vs <;> cases indentation? level <;> simp

/-- A container has a written form if its lines have one and its closing bracket can be indented. -/
theorem isSome_container? (opening closing : String) (level : Nat) (lines : Option String) :
    (container? opening closing level lines).isSome = true ↔
      2 * level ≤ Text.widestPadding ∧ lines.isSome = true := by
  rw [← isSome_indentation?, container?]
  cases lines <;> cases indentation? level <;> simp

mutual
/-- A value has a written form at a level if what is deepest in it can be indented. -/
theorem isSome_render? (showNumber : ν → String) (level : Nat) : (v : Json ν) →
    ((render? showNumber level v).isSome = true ↔
      v.depth = 0 ∨ 2 * (level + v.depth) ≤ Text.widestPadding)
  | null | bool true | bool false | number _ | string _ | array [] | object [] => by
    simp [render?, depth]
  | array (v :: vs) => by
    rw [render?_array, isSome_container?, ← renderElems?_eq,
      isSome_renderElems? showNumber (level + 1) (v :: vs), depth]
    simp only [reduceCtorEq, false_or]
    omega
  | object (e :: es) => by
    rw [render?_object, isSome_container?, ← renderEntries?_eq,
      isSome_renderEntries? showNumber (level + 1) (e :: es), depth]
    simp only [reduceCtorEq, false_or]
    omega

theorem isSome_renderElems? (showNumber : ν → String) (level : Nat) : (vs : List (Json ν)) →
    ((renderElems? showNumber level vs).isSome = true ↔
      vs = [] ∨ 2 * (level + elemsDepth vs) ≤ Text.widestPadding)
  | [] => by simp [renderElems?]
  | v :: vs => by
    rw [renderElems?_eq, isSome_lines?_cons, isSome_render? showNumber level v, ← renderElems?_eq,
      isSome_renderElems? showNumber level vs, elemsDepth]
    cases vs <;> simp only [reduceCtorEq, false_or, true_or, and_true, elemsDepth] <;> omega

theorem isSome_renderEntries? (showNumber : ν → String) (level : Nat) :
    (es : List (String × Json ν)) → ((renderEntries? showNumber level es).isSome = true ↔
      es = [] ∨ 2 * (level + entriesDepth es) ≤ Text.widestPadding)
  | [] => by simp [renderEntries?]
  | (key, v) :: es => by
    rw [renderEntries?_eq, isSome_lines?_cons, renderMember?, Option.isSome_map,
      isSome_render? showNumber level v, ← renderEntries?_eq,
      isSome_renderEntries? showNumber level es, entriesDepth]
    cases es <;> simp only [reduceCtorEq, false_or, true_or, and_true, entriesDepth] <;> omega
end

/-! ## Values -/

/-- Strings and keys can stand between quotes, and numbers are read as they are shown. -/
inductive Printable (showNumber : ν → String) (ofText : String → ν) : Json ν → Prop
  | null : Printable showNumber ofText .null
  | bool (b : Bool) : Printable showNumber ofText (.bool b)
  | number {x : ν} : numberPattern.Matches (showNumber x).toList → ofText (showNumber x) = x →
    Printable showNumber ofText (.number x)
  | string {s : String} : Quotable s.toList → Printable showNumber ofText (.string s)
  | array {vs : List (Json ν)} : (∀ v ∈ vs, Printable showNumber ofText v) →
    Printable showNumber ofText (.array vs)
  | object {es : List (String × Json ν)} : (∀ e ∈ es, Quotable e.1.toList) →
    (∀ e ∈ es, Printable showNumber ofText e.2) → Printable showNumber ofText (.object es)

theorem entry_of_renderMember? {level : Nat} {e : String × Json ν} {text : String}
    (htext : renderMember? showNumber level e = some text) (hkey : Quotable e.1.toList)
    (hv : ∀ {shown : String}, render? showNumber level e.2 = some shown → ∀ {u t' : List Char},
      Blanks u t' → Value ofText (shown.toList ++ u) e.2 t') {u t' : List Char}
    (hu : Blanks u t') : Entry ofText (text.toList ++ u) e t' := by
  obtain ⟨shown, hshown, rfl⟩ := Option.map_eq_some_iff.1 htext
  have hspace := (Blanks.refl (shown.toList ++ u)).append blank_space
  have he := Entry.mk (matches_quoted hkey) (.refl _) ⟨_, rfl, hspace⟩ (hv hshown hu)
  rw [String.ofList_toList, unquoted_quoted] at he
  simpa using he

/-- The rules derive a value from its written form, whatever white space follows it: by induction on
the value. -/
theorem value_of_render? {v : Json ν} (hv : Printable showNumber ofText v) :
    ∀ (level : Nat) {text : String}, render? showNumber level v = some text →
      ∀ {u t' : List Char}, Blanks u t' → Value ofText (text.toList ++ u) v t' := by
  induction hv with
  | null =>
    rintro _ _ ⟨⟩ u t' hu
    exact .null ⟨_, rfl, hu⟩
  | bool b =>
    intro level text htext u t' hu
    cases b <;> cases htext
    · exact .false ⟨_, rfl, hu⟩
    · exact .true ⟨_, rfl, hu⟩
  | @number x hw hx =>
    rintro _ _ ⟨⟩ u t' hu
    have hn : Value ofText _ _ t' := .number hw hu
    rwa [String.ofList_toList, hx] at hn
  | @string s hs =>
    rintro _ _ ⟨⟩ u t' hu
    have hn : Value ofText _ _ t' := .string (matches_quoted hs) hu
    rwa [String.ofList_toList, unquoted_quoted] at hn
  | @array vs hvs ih =>
    intro level text htext u t' hu
    cases vs with
    | nil =>
      cases htext
      exact .noElements ⟨_, rfl, .refl _⟩ ⟨_, rfl, hu⟩
    | cons v vs =>
      rw [render?_array] at htext
      obtain ⟨t, x, hopen, hv, hvs⟩ :=
        many_of_container? htext (fun w hw => ih w hw (level + 1)) u
      exact .elements hopen hv (elements_of_many hvs) ⟨_, rfl, hu⟩
  | @object es hkeys hes ih =>
    intro level text htext u t' hu
    cases es with
    | nil =>
      cases htext
      exact .noEntries ⟨_, rfl, .refl _⟩ ⟨_, rfl, hu⟩
    | cons e es =>
      rw [render?_object] at htext
      obtain ⟨t, x, hopen, he, hes⟩ := many_of_container? htext (fun e' he' _ hshown =>
        entry_of_renderMember? hshown (hkeys e' he') (ih e' he' (level + 1))) u
      exact .entries hopen he (entries_of_many hes) ⟨_, rfl, hu⟩

/-- A value has a written form at a level if what is deepest in it can be indented, and the grammar
reads back what has been written. -/
theorem parse_render {E : Engine} (hnumber : E.Reads numberText numberPattern)
    (hstring : E.Reads stringText stringPattern) {v : Json ν}
    (hv : Printable showNumber ofText v) (level : Nat) :
    ((render? showNumber level v).isSome = true ↔
        v.depth = 0 ∨ 2 * (level + v.depth) ≤ Text.widestPadding) ∧
      ∀ text, render? showNumber level v = some text → ∃ g, grammar? E ofText = some g ∧
        ∃ d, ∀ n, text.toList.length < n →
          g.parser n (TextCursor.ofString text) = some ⟨.ok v, d⟩ := by
  refine ⟨isSome_render? showNumber level v, fun text htext => ?_⟩
  have hvalue := value_of_render? hv level htext (.refl [])
  rw [List.append_nil] at hvalue
  obtain ⟨⟨g, hg, ⟨_, d⟩, hr, hok⟩, -⟩ := parses_exactly hnumber hstring ofText text.toList
  obtain rfl := (hok v).2 ⟨_, .refl _, hvalue⟩
  exact ⟨g, hg, d, hr⟩

/-- The whole number that digits, and perhaps a minus sign before them, write. -/
def wholeNumber (s : String) : Int :=
  let digits := s.toList.filter Char.isDigit
  let magnitude : Nat := digits.foldl (fun n x => 10 * n + (x.toNat - 48)) 0
  if s.toList.head? = some '-' then -magnitude else magnitude

/-- Keys that occur twice, containers and strings with nothing in them, escapes and line feeds. -/
def sample : Json Int :=
  .object [("a", .array []), ("a", .object []), ("", .string "two words\nand a line"),
    ("\\\"", .array [.number (-25), .string "", .null, .bool true])]

theorem sample_read_back :
    Printable Int.repr wholeNumber sample ∧
      ∃ text, render? Int.repr 0 sample = some text ∧
        ∃ g, grammar? Engine.automata wholeNumber = some g ∧
          ∃ d, ∀ n, text.toList.length < n →
            g.parser n (TextCursor.ofString text) = some ⟨.ok sample, d⟩ := by
  have hplain : ∀ {cs : List Char}, cs.all (fun x => x != '"' && x != '\\') = true →
      Quotable cs := by
    intro cs h
    induction cs with
    | nil => exact .nil
    | cons x cs ih =>
      simp only [List.all_cons, Bool.and_eq_true, bne_iff_ne] at h
      exact .plain h.1.1 h.1.2 (ih h.2)
  have hnumber : Printable Int.repr wholeNumber (.number (-25)) :=
    .number (by decide +kernel) (by decide +kernel)
  have hs : Printable Int.repr wholeNumber sample := by
    refine .object ?_ ?_ <;> simp only [List.forall_mem_cons]
    · exact ⟨hplain (by decide), hplain (by decide), .nil, .pair (by decide) .nil,
        List.forall_mem_nil _⟩
    · refine ⟨.array (List.forall_mem_nil _),
        .object (List.forall_mem_nil _) (List.forall_mem_nil _),
        .string (hplain (by decide)), .array ?_, List.forall_mem_nil _⟩
      simp only [List.forall_mem_cons]
      exact ⟨hnumber, .string .nil, .null, .bool true, List.forall_mem_nil _⟩
  obtain ⟨hsome, hread⟩ := parse_render automata_reads_number automata_reads_string hs 0
  obtain ⟨text, htext⟩ := Option.isSome_iff_exists.1 (hsome.2 (.inr (by decide)))
  exact ⟨hs, text, htext, hread text htext⟩

/-- An array in an array, and so on. -/
def nested (v : Json ν) : Nat → Json ν
  | 0 => v
  | n + 1 => .array [nested v n]

theorem depth_nested (v : Json ν) (n : Nat) : (nested v n).depth = v.depth + n := by
  induction n with
  | zero => rfl
  | succ n ih => simp [nested, depth, elemsDepth, ih, Nat.add_assoc]

theorem Printable.nested {v : Json ν} (h : Printable showNumber ofText v) (n : Nat) :
    Printable showNumber ofText (Json.nested v n) := by
  induction n with
  | zero => exact h
  | succ n ih => exact .array (List.forall_mem_singleton.2 ih)

theorem render?_nested (v : Json ν) {level n : Nat}
    (hn : Text.widestPadding < 2 * (level + (n + 1))) :
    render? showNumber level (nested v (n + 1)) = none := by
  refine Option.not_isSome_iff_eq_none.1 fun h => ?_
  rw [isSome_render?, depth_nested] at h
  omega

/-- A value that is nested too deeply to be written. -/
theorem nested_not_rendered : Printable Int.repr wholeNumber (nested .null 32768) ∧
    render? Int.repr 0 (nested .null 32768) = none :=
  ⟨Printable.null.nested 32768, render?_nested .null (n := 32767) (by decide)⟩

end Descent.Json
