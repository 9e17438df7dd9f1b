import Descent.Json.Grammar
import Descent.Proofs.Automata
import Descent.Proofs.Readings

/-!
# Texts of JSON values: `make_json_parser`

`Json.Value` is the grammar of JSON texts as rules, with what lies ahead before and after each part
and without an order in which alternatives are tried. Main theorem `Json.parses_exactly`: a run over
a text ends, and succeeds with a value if and only if the rules derive it from the text. What a rule
reads is told by the character it begins with, and ends before one that cannot go on in it.
-/

namespace Descent.Json

open Regex Regex.Pattern TextGrammar

variable {ν α : Type} {ofText : String → ν}

/-! ## Literals -/

def numberStarts : CharSet := .unions [.single '-', .range '0' '9']

theorem lexical_number : Lexical numberPattern numberStarts numberMore := by decide +kernel

theorem lexical_string : Lexical stringPattern (.single '"') .none := by decide +kernel

/-- A string is its quotes and what stands between them. -/
theorem string_quoted {w : List Char} (h : stringPattern.Matches w) :
    ∃ body, w = '"' :: (body ++ ['"']) := by
  obtain ⟨_, _, rfl, ⟨body, _, -, rfl, rfl⟩, rfl⟩ := h
  exact ⟨body, rfl⟩

/-- The literals as the most preferred ways to match their patterns. -/
def leftmost : Lexicon :=
  { number := numberPattern.ways.atStart.first, string := stringPattern.ways.atStart.first }

theorem lexicon?_eq {E : Engine} (hnumber : E.Reads numberText numberPattern)
    (hstring : E.Reads stringText stringPattern) : lexicon? E = some leftmost := by
  unfold Engine.Reads at hnumber hstring
  rw [lexicon?, hnumber, hstring]
  rfl

/-! ## The rules -/

mutual
/-- A value, with white space after it. -/
inductive Value (ofText : String → ν) : List Char → Json ν → List Char → Prop
  | null {t t' : List Char} : Lexeme "null" t t' → Value ofText t .null t'
  | true {t t' : List Char} : Lexeme "true" t t' → Value ofText t (.bool true) t'
  | false {t t' : List Char} : Lexeme "false" t t' → Value ofText t (.bool false) t'
  | number {w u t' : List Char} : numberPattern.Matches w → Blanks u t' →
    Value ofText (w ++ u) (.number (ofText (String.ofList w))) t'
  | string {w u t' : List Char} : stringPattern.Matches w → Blanks u t' →
    Value ofText (w ++ u) (.string (unquoted (String.ofList w))) t'
  | noElements {t u t' : List Char} : Lexeme "[" t u → Lexeme "]" u t' →
    Value ofText t (.array []) t'
  | elements {t u x y t' : List Char} {v : Json ν} {vs : List (Json ν)} : Lexeme "[" t u →
    Value ofText u v x → Elements ofText x vs y → Lexeme "]" y t' →
    Value ofText t (.array (v :: vs)) t'
  | noEntries {t u t' : List Char} : Lexeme "\x7b" t u → Lexeme "\x7d" u t' →
    Value ofText t (.object []) t'
  | entries {t u x y t' : List Char} {e : String × Json ν} {es : List (String × Json ν)} :
    Lexeme "\x7b" t u → Entry ofText u e x → Entries ofText x es y → Lexeme "\x7d" y t' →
    Value ofText t (.object (e :: es)) t'

/-- Any number of values, with a comma before each. -/
inductive Elements (ofText : String → ν) : List Char → List (Json ν) → List Char → Prop
  | done {t : List Char} : Elements ofText t [] t
  | more {t u x t' : List Char} {v : Json ν} {vs : List (Json ν)} : Lexeme "," t u →
    Value ofText u v x → Elements ofText x vs t' → Elements ofText t (v :: vs) t'

/-- A key, a colon and a value. -/
inductive Entry (ofText : String → ν) : List Char → String × Json ν → List Char → Prop
  | mk {w u x y t' : List Char} {v : Json ν} : stringPattern.Matches w → Blanks u x →
    Lexeme ":" x y → Value ofText y v t' →
    Entry ofText (w ++ u) (unquoted (String.ofList w), v) t'

/-- Any number of entries, with a comma before each. -/
inductive Entries (ofText : String → ν) : List Char → List (String × Json ν) → List Char → Prop
  | done {t : List Char} : Entries ofText t [] t
  | more {t u x t' : List Char} {e : String × Json ν} {es : List (String × Json ν)} :
    Lexeme "," t u → Entry ofText u e x → Entries ofText x es t' → Entries ofText t (e :: es) t'
end

/-- White space, and then a value that takes up the rest of the text. -/
def Document (ofText : String → ν) (text : List Char) (v : Json ν) : Prop :=
  ∃ t, Blanks text t ∧ Value ofText t v []

/-! ## The definition -/

def anyValue (ofText : String → ν) : TextGrammar [] (Json ν) := .fix 0 (value leftmost ofText)

/-- The alternatives for a value, in which others are read by `q`. -/
def alternatives (ofText : String → ν) (q : TextGrammar [] (Json ν)) (i : Fin 6) :
    TextGrammar [] (Json ν) :=
  match i with
  | 0 => .constant (token "null") .null
  | 1 => boolean
  | 2 => numeral leftmost ofText
  | 3 => .map .string (plainString leftmost)
  | 4 => elements q
  | 5 => members leftmost q

theorem anyValue_returns_iff {c : TextCursor} {r : Reply TextCursor (Json ν)} :
    (anyValue ofText).Returns c r ↔
      (Grammar.choice "json value" (alternatives ofText (anyValue ofText))).Returns c r := by
  refine Grammar.fix_returns_iff (fun _ => rfl) fun n => ?_
  show Parser.choice _ (List.ofFn fun i => _) = Parser.choice _ (List.ofFn fun i => _)
  congr 2
  funext i
  match i with
  | 0 | 1 | 2 | 3 | 4 | 5 => rfl

/-! ## What is read is derived -/

variable {c d : TextCursor}

theorem of_plainString_ok {s : String} (h : (plainString leftmost).Returns c ⟨.ok s, d⟩) :
    ∃ w u, stringPattern.Matches w ∧ s = unquoted (String.ofList w) ∧ c.after = w ++ u ∧
      Blanks u d.after := by
  obtain ⟨s, hs, rfl⟩ := Grammar.map_ok_iff.1 (Grammar.named_ok_iff.1 h)
  obtain ⟨w, u, hw, rfl, ha, hb⟩ := lexical_string.of_lexeme_ok hs
  exact ⟨w, u, hw, rfl, ha, hb⟩

theorem of_wrap_ok {l r : String} {p : TextGrammar [] α} {v : α}
    (h : (Grammar.wrap (token l) p (token r)).Returns c ⟨.ok v, d⟩) :
    ∃ a b : TextCursor,
      Lexeme l c.after a.after ∧ p.Returns a ⟨.ok v, b⟩ ∧ Lexeme r b.after d.after := by
  obtain ⟨b, _, hl, hr⟩ := Grammar.left_ok_iff.1 h
  obtain ⟨_, a, hl, hp⟩ := Grammar.right_ok_iff.1 hl
  exact ⟨a, b, of_token_ok hl, hp, of_token_ok hr⟩

theorem of_numeral_ok {v : Json ν} (h : (numeral leftmost ofText).Returns c ⟨.ok v, d⟩) :
    Value ofText c.after v d.after := by
  obtain ⟨x, hx, rfl⟩ := Grammar.map_ok_iff.1 h
  obtain ⟨s, hs, rfl⟩ := Grammar.map_ok_iff.1 hx
  obtain ⟨w, u, hw, rfl, ha, hb⟩ := lexical_number.of_lexeme_ok hs
  rw [ha]
  exact .number hw hb

theorem of_boolean_ok {v : Json ν} (h : boolean.Returns c ⟨.ok v, d⟩) :
    Value ofText c.after v d.after := by
  obtain ⟨i, hi⟩ := of_choice_ok h
  match i with
  | 0 =>
    obtain ⟨_, ht, rfl⟩ := Grammar.map_ok_iff.1 hi
    exact .true (of_token_ok ht)
  | 1 =>
    obtain ⟨_, ht, rfl⟩ := Grammar.map_ok_iff.1 hi
    exact .false (of_token_ok ht)

theorem elements_of_many {t t' : List Char} {vs : List (Json ν)}
    (h : Many (fun t v t' => ∃ u, Lexeme "," t u ∧ Value ofText u v t') t vs t') :
    Elements ofText t vs t' := by
  induction h with
  | nil => exact .done
  | cons hv _ ih =>
    obtain ⟨u, ht, hv⟩ := hv
    exact .more ht hv ih

theorem entries_of_many {t t' : List Char} {es : List (String × Json ν)}
    (h : Many (fun t e t' => ∃ u, Lexeme "," t u ∧ Entry ofText u e t') t es t') :
    Entries ofText t es t' := by
  induction h with
  | nil => exact .done
  | cons he _ ih =>
    obtain ⟨u, ht, he⟩ := he
    exact .more ht he ih

/-- What `q` reads with fewer than `k` characters ahead is derived. -/
def SoundBelow (ofText : String → ν) (q : TextGrammar [] (Json ν)) (k : Nat) : Prop :=
  ∀ ⦃c d : TextCursor⦄ ⦃v : Json ν⦄, c.after.length < k → q.Returns c ⟨.ok v, d⟩ →
    Value ofText c.after v d.after

section

variable {q : TextGrammar [] (Json ν)} {k : Nat}

theorem SoundBelow.entry (hq : SoundBelow ofText q k) {e : String × Json ν}
    (hc : c.after.length < k) (h : (entry leftmost q).Returns c ⟨.ok e, d⟩) :
    Entry ofText c.after e d.after := by
  obtain ⟨b, hkey, hv⟩ := Grammar.pair_ok_iff.1 h
  have hb := length_after_le hkey
  obtain ⟨a, _, hs, ht⟩ := Grammar.left_ok_iff.1 hkey
  obtain ⟨w, u, hw, hs, ha, hu⟩ := of_plainString_ok hs
  obtain ⟨key, v⟩ := e
  obtain rfl : key = _ := hs
  rw [ha]
  exact .mk hw hu (of_token_ok ht) (hq (by omega) hv)

theorem SoundBelow.elements (hq : SoundBelow ofText q k) {v : Json ν}
    (hc : c.after.length < k + 1) (h : (elements q).Returns c ⟨.ok v, d⟩) :
    Value ofText c.after v d.after := by
  obtain ⟨vs, hw, rfl⟩ := Grammar.map_ok_iff.1 h
  obtain ⟨a, b, hopen, hs, hclose⟩ := of_wrap_ok hw
  have ha := hopen.length_lt (by decide)
  obtain ⟨e, x, he, rfl, rfl⟩ | ⟨v, us, x, hv, hl, rfl⟩ := Grammar.sepBy_ok_iff.1 hs
  · exact .noElements hopen hclose
  · have hx := length_after_le hv
    refine .elements hopen (hq (by omega) hv) (elements_of_many ?_) hclose
    refine many_of_loop (fun {b d v} hb hr => ?_) hl
    obtain ⟨_, y, ht, hv⟩ := Grammar.right_ok_iff.1 hr
    have hy := length_after_le ht
    exact ⟨_, of_token_ok ht, hq (by omega) hv⟩

theorem SoundBelow.members (hq : SoundBelow ofText q k) {v : Json ν}
    (hc : c.after.length < k + 1) (h : (members leftmost q).Returns c ⟨.ok v, d⟩) :
    Value ofText c.after v d.after := by
  obtain ⟨es, hw, rfl⟩ := Grammar.map_ok_iff.1 h
  obtain ⟨a, b, hopen, hs, hclose⟩ := of_wrap_ok hw
  have ha := hopen.length_lt (by decide)
  obtain ⟨e, x, he, rfl, rfl⟩ | ⟨e, us, x, he, hl, rfl⟩ := Grammar.sepBy_ok_iff.1 hs
  · exact .noEntries hopen hclose
  · have hx := length_after_le he
    refine .entries hopen (hq.entry (by omega) he) (entries_of_many ?_) hclose
    refine many_of_loop (fun {b d e} hb hr => ?_) hl
    obtain ⟨_, y, ht, he⟩ := Grammar.right_ok_iff.1 hr
    have hy := length_after_le ht
    exact ⟨_, of_token_ok ht, hq.entry (by omega) he⟩

end

/-- Values inside of others have fewer characters ahead: by induction on how many there are. -/
theorem anyValue_sound (ofText : String → ν) (k : Nat) : SoundBelow ofText (anyValue ofText) k := by
  induction k with
  | zero => exact fun _ _ _ hc => absurd hc (Nat.not_lt_zero _)
  | succ k ih =>
    intro c d v hc h
    obtain ⟨i, hi⟩ := of_choice_ok (anyValue_returns_iff.1 h)
    match i with
    | 0 =>
      obtain ⟨_, ht, rfl⟩ := Grammar.map_ok_iff.1 hi
      exact .null (of_token_ok ht)
    | 1 => exact of_boolean_ok hi
    | 2 => exact of_numeral_ok hi
    | 3 =>
      obtain ⟨s, hs, rfl⟩ := Grammar.map_ok_iff.1 hi
      obtain ⟨w, u, hw, rfl, ha, hu⟩ := of_plainString_ok hs
      rw [ha]
      exact .string hw hu
    | 4 => exact ih.elements hc hi
    | 5 => exact ih.members hc hi

/-! ## What is derived is read -/

/-- What the alternative for a value begins with. -/
def starts : Fin 6 → CharSet
  | 0 => .single 'n'
  | 1 => .ofList ['t', 'f']
  | 2 => numberStarts
  | 3 => .single '"'
  | 4 => .single '['
  | 5 => .single '\x7b'

/-- What follows all elements or entries. -/
def closing : CharSet := .ofList [']', '\x7d']

/-- What may follow a value. -/
def ending : CharSet := .ofList [',', ']', '\x7d']

variable {t t' u w : List Char} {v : Json ν} {vs : List (Json ν)} {e : String × Json ν}
  {es : List (String × Json ν)} {i : Fin 6} {x : Char}

/-- An alternative that cannot begin with the next character fails where it began. -/
theorem refuses_alternative {q : TextGrammar [] (Json ν)} (h : Avoids (starts i) t) :
    Refuses (alternatives ofText q i) t := by
  match i with
  | 0 => exact (refuses_token _ (x := 'n') rfl rfl h).map
  | 1 =>
    refine .choice fun j => ?_
    match j with
    | 0 => exact (refuses_token _ (x := 't') rfl rfl h).map
    | 1 => exact (refuses_token _ (x := 'f') rfl rfl h).map
  | 2 => exact (lexical_number.refuses h).lexeme.map.map
  | 3 => exact (lexical_string.refuses h).lexeme.map.named.map
  | 4 => exact (refuses_token _ (x := '[') rfl rfl h).right.left.map
  | 5 => exact (refuses_token _ (x := '\x7b') rfl rfl h).right.left.map

/-- Only one alternative can begin with the next character. -/
theorem reads_anyValue (i : Fin 6) (hi : Starts (starts i) t)
    (h : Reads (alternatives ofText (anyValue ofText) i) t v t') :
    Reads (anyValue ofText) t v t' := by
  have hapart : ∀ i j, j < i → (starts i).Apart (starts j) := by decide
  intro c hc
  obtain ⟨d, hr, hd⟩ := Reads.choice i
    (fun j hj => refuses_alternative (hi.avoids (hapart i j hj))) h hc
  exact ⟨d, anyValue_returns_iff.2 hr, hd⟩

theorem starts_visible : ∀ i, (starts i).Visible := by decide

theorem Value.starts (h : Value ofText t v t') : ∃ i, Starts (Json.starts i) t := by
  cases h with
  | null h => exact ⟨0, h.starts rfl rfl⟩
  | true h | false h => exact ⟨1, h.starts rfl rfl⟩
  | number hw => exact ⟨2, lexical_number.starts hw _⟩
  | string hw => exact ⟨3, lexical_string.starts hw _⟩
  | noElements h | elements h => exact ⟨4, h.starts rfl rfl⟩
  | noEntries h | entries h => exact ⟨5, h.starts rfl rfl⟩

theorem Value.fresh (h : Value ofText t v t') : Fresh t := by
  obtain ⟨i, hi⟩ := h.starts
  exact hi.fresh (starts_visible i)

theorem Entry.fresh (h : Entry ofText t e t') : Fresh t := by
  cases h with
  | mk hw => exact (lexical_string.starts hw _).fresh (by decide)

theorem Elements.ending (h : Elements ofText t vs t') (ht : Starts ending t') :
    Starts ending t := by
  cases h with
  | done => exact ht
  | more h => exact h.starts rfl rfl

theorem Entries.ending (h : Entries ofText t es t') (ht : Starts ending t') : Starts ending t := by
  cases h with
  | done => exact ht
  | more h => exact h.starts rfl rfl

theorem ending_of_closing (h : Starts closing t) : Starts ending t := h.mono (by decide)

theorem fresh_of_ending (h : Starts ending t) : Fresh t := h.fresh (by decide)

theorem reads_wrap {l r : String} {p : TextGrammar [] α} {a b : List Char} {v : α}
    (hl : Lexeme l t a) (ha : Fresh a) (hp : Reads p a v b) (hr : Lexeme r b t') (ht : Fresh t') :
    Reads (.wrap (token l) p (token r)) t v t' :=
  ((hl.reads ha).right hp).left (hr.reads ht)

theorem reads_plainString (hw : stringPattern.Matches w) (hb : Blanks u t') (ht : Fresh t') :
    Reads (plainString leftmost) (w ++ u) (unquoted (String.ofList w)) t' :=
  (lexical_string.reads_lexeme stringText (by decide) hw hb (fun _ _ => rfl) ht).map.named

/-! A loop over elements or entries ends before a bracket, and there is no value or entry before
one either. -/

theorem refuses_comma {q : TextGrammar [] α} (h : Starts closing t) :
    Refuses (.right (token ",") q) t :=
  (refuses_token (.single ',') (x := ',') rfl rfl
    (h.avoids (by decide))).right

theorem refuses_anyValue (h : Starts closing t) : Refuses (anyValue ofText) t := by
  have hapart : ∀ i, closing.Apart (starts i) := by decide
  have hall : Refuses (.choice "json value" (alternatives ofText (anyValue ofText))) t :=
    .choice fun i => refuses_alternative (h.avoids (hapart i))
  intro c hc
  obtain ⟨e, he⟩ := hall hc
  exact ⟨e, anyValue_returns_iff.2 he⟩

theorem refuses_entry {q : TextGrammar [] (Json ν)} (h : Starts closing t) :
    Refuses (entry leftmost q) t :=
  (lexical_string.refuses (h.avoids (by decide))).lexeme.map.named.left.pair

mutual
/-- A value is read up to what follows it, by induction on the rules for it. -/
theorem Value.reads {t t' : List Char} {v : Json ν} : Value ofText t v t' → Starts ending t' →
    Reads (anyValue ofText) t v t'
  | .null h, ht =>
    reads_anyValue 0 (h.starts rfl rfl) (h.reads (fresh_of_ending ht)).map
  | .true h, ht =>
    reads_anyValue 1 (h.starts rfl rfl)
      (.choice 0 nofun (h.reads (fresh_of_ending ht)).map)
  | .false h, ht => by
    have hf : Starts (.single 'f') t := h.starts rfl rfl
    refine reads_anyValue 1 (hf.mono (by decide))
      (.choice 1 (fun j hj => ?_) (h.reads (fresh_of_ending ht)).map)
    obtain rfl : j = 0 := by omega
    exact (refuses_token (.single 't') (x := 't') rfl rfl
      (hf.avoids (by decide))).map
  | .number hw hb, ht =>
    have hr := lexical_number.reads_lexeme numberText (by decide) hw hb (ht.avoids (by decide))
      (fresh_of_ending ht)
    reads_anyValue 2 (lexical_number.starts hw _) hr.map.map
  | .string hw hb, ht =>
    reads_anyValue 3 (lexical_string.starts hw _) (reads_plainString hw hb (fresh_of_ending ht)).map
  | .noElements ho hc, ht => by
    have hclose : Starts closing _ := hc.starts rfl rfl
    have hs : Reads (.sepBy (token ",") (anyValue ofText)) _ [] _ :=
      reads_sepBy_nil (refuses_anyValue hclose)
    have hwrap := reads_wrap ho (fresh_of_ending (ending_of_closing hclose)) hs hc
      (fresh_of_ending ht)
    exact reads_anyValue 4 (ho.starts rfl rfl) hwrap.map
  | .elements ho hv hs hc, ht => by
    have hclose : Starts closing _ := hc.starts rfl rfl
    have hall := (hv.reads (hs.ending (ending_of_closing hclose))).sepBy (hs.readsAll hclose)
    have hwrap := reads_wrap ho hv.fresh hall hc (fresh_of_ending ht)
    exact reads_anyValue 4 (ho.starts rfl rfl) hwrap.map
  | .noEntries ho hc, ht => by
    have hclose : Starts closing _ := hc.starts rfl rfl
    have hs : Reads (.sepBy (token ",") (entry leftmost (anyValue ofText))) _ [] _ :=
      reads_sepBy_nil (refuses_entry hclose)
    have hwrap := reads_wrap ho (fresh_of_ending (ending_of_closing hclose)) hs hc
      (fresh_of_ending ht)
    exact reads_anyValue 5 (ho.starts rfl rfl) hwrap.map
  | .entries ho he hs hc, ht => by
    have hclose : Starts closing _ := hc.starts rfl rfl
    have hall := (he.reads (hs.ending (ending_of_closing hclose))).sepBy (hs.readsAll hclose)
    have hwrap := reads_wrap ho he.fresh hall hc (fresh_of_ending ht)
    exact reads_anyValue 5 (ho.starts rfl rfl) hwrap.map

theorem Elements.readsAll {t t' : List Char} {vs : List (Json ν)} : Elements ofText t vs t' →
    Starts closing t' → ReadsAll (.right (token ",") (anyValue ofText)) t vs t'
  | .done, ht => (refuses_comma ht).readsAll
  | .more hc hv hs, ht => by
    have hr := hv.reads (hs.ending (ending_of_closing ht))
    refine .cons ((hc.reads hv.fresh).right hr) ?_ (hs.readsAll ht)
    exact Nat.lt_of_le_of_lt hr.length_le (hc.length_lt (by decide))

theorem Entry.reads {t t' : List Char} {e : String × Json ν} : Entry ofText t e t' →
    Starts ending t' → Reads (entry leftmost (anyValue ofText)) t e t'
  | .mk hw hb hc hv, ht => by
    have hx : Starts (.single ':') _ := hc.starts rfl rfl
    have hkey := reads_plainString hw hb (hx.fresh (by decide))
    exact (hkey.left (hc.reads hv.fresh)).pair (hv.reads ht)

theorem Entries.readsAll {t t' : List Char} {es : List (String × Json ν)} :
    Entries ofText t es t' → Starts closing t' →
    ReadsAll (.right (token ",") (entry leftmost (anyValue ofText))) t es t'
  | .done, ht => (refuses_comma ht).readsAll
  | .more hc he hs, ht => by
    have hr := he.reads (hs.ending (ending_of_closing ht))
    refine .cons ((hc.reads he.fresh).right hr) ?_ (hs.readsAll ht)
    exact Nat.lt_of_le_of_lt hr.length_le (hc.length_lt (by decide))
end

/-! ## Whole texts -/

theorem token_advances {Γ : List Type} {K : Enclosing Char .text Γ} {s : String}
    (hs : s.toList ≠ []) : (token s : TextGrammar Γ String).Advances TextCursor K :=
  advances_of_shorter (token s) (fun _ => rfl) fun h => (of_token_ok h).length_lt hs

/-- Other values are only read inside of brackets. -/
theorem grammar_guarded (ofText : String → ν) :
    (grammar leftmost ofText).Guarded TextCursor .nil fun _ _ => False := by
  refine ⟨trivial, fun i => ?_⟩
  match i with
  | 0 | 2 | 3 => exact ⟨trivial, trivial⟩
  | 1 =>
    intro j
    match j with
    | 0 | 1 => exact ⟨trivial, trivial⟩
  | 4 =>
    exact ⟨⟨⟨trivial, trivial⟩, .inr (token_advances (by decide)), trivial, trivial⟩, trivial,
      trivial⟩
  | 5 =>
    refine ⟨⟨⟨trivial, trivial⟩, fun j => ?_, trivial, trivial⟩, trivial, trivial⟩
    match j with
    | 0 => exact ⟨⟨trivial, trivial⟩, trivial, trivial⟩
    | 1 => exact .inl (.inr (token_advances (by decide)))

theorem grammar_ok_iff {v : Json ν} :
    (∃ d, (grammar leftmost ofText).Returns c ⟨.ok v, d⟩) ↔ Document ofText c.after v := by
  constructor
  · rintro ⟨d, h⟩
    obtain ⟨h, hd⟩ := finish_ok_iff.1 h
    obtain ⟨_, b, hs, hv⟩ := Grammar.right_ok_iff.1 h
    have hv := anyValue_sound ofText _ (Nat.lt_succ_self _) hv
    rw [hd] at hv
    exact ⟨b.after, of_skip_ok hs, hv⟩
  · rintro ⟨t, hb, hv⟩
    obtain ⟨d, h, hd⟩ := (reads_skip hb hv.fresh).right (hv.reads (starts_nil _)) rfl
    exact ⟨d, finish_ok_iff.2 ⟨h, hd⟩⟩

/-- Without its first and its last byte, a string is the text between its quotes. -/
theorem slice?_string {w : List Char} (h : stringPattern.Matches w) :
    Text.slice? w 1 (Text.width w - 1) = some (w.drop 1).dropLast := by
  obtain ⟨body, rfl⟩ := string_quoted h
  have hq : ('"' : Char).utf8Size = 1 := by decide
  have hwidth : Text.width ('"' :: (body ++ ['"'])) - 1 = Text.width ('"' :: body) := by
    simp [hq]
    omega
  have hslice := Text.slice?_append ['"'] body ['"']
  rw [hwidth]
  simpa [hq] using hslice

/-- A run over a text ends, and succeeds with a value if and only if the rules derive the value from
the text. Each string that is read can be sliced between its quotes, to what stands between them. -/
theorem parses_exactly {E : Engine} (hnumber : E.Reads numberText numberPattern)
    (hstring : E.Reads stringText stringPattern) (ofText : String → ν) (text : List Char) :
    (∃ g, grammar? E ofText = some g ∧
      ∃ r, (∀ n, text.length < n → g.parser n (TextCursor.ofText text) = some r) ∧
        ∀ v, r.result = .ok v ↔ Document ofText text v) ∧
    ∀ {find : Finder} {c d : TextCursor} {s : String}, E.anchored? stringText = some find →
      (lexeme (regex stringText find) : TextGrammar [] String).Returns c ⟨.ok s, d⟩ →
      Text.slice? s.toList 1 (Text.width s.toList - 1) = some (unquoted s).toList := by
  constructor
  · obtain ⟨r, hr, hv⟩ := run_of_guarded (grammar_guarded ofText) (.ofText text)
    refine ⟨grammar leftmost ofText, ?_, r, hr, fun v => (hv v).trans grammar_ok_iff⟩
    rw [grammar?, lexicon?_eq hnumber hstring, Option.map_some]
  · intro find c d s hfind h
    obtain rfl : stringPattern.ways.atStart.first = find :=
      Option.some.inj (Eq.trans (Eq.symm hstring) hfind)
    obtain ⟨w, u, hw, rfl, -⟩ := lexical_string.of_lexeme_ok h
    simpa [unquoted] using slice?_string hw

theorem automata_reads_number : Engine.automata.Reads numberText numberPattern :=
  Engine.automata_reads (by decide +kernel)

theorem automata_reads_string : Engine.automata.Reads stringText stringPattern :=
  Engine.automata_reads (by decide +kernel)

/-- An array with white space around its elements. -/
theorem array_parsed : ∃ g, grammar? Engine.automata id = some g ∧
    ∃ r, (∀ n, 9 < n → g.parser n (TextCursor.ofString "[ 1 ,\"a\"]") = some r) ∧
      r.result = .ok (.array [.number "1", .string "a"]) := by
  obtain ⟨⟨g, hg, r, hr, hv⟩, -⟩ := parses_exactly automata_reads_number automata_reads_string
    id "[ 1 ,\"a\"]".toList
  have hspace {t : List Char} : Blanks (' ' :: t) t :=
    ⟨[' '], List.forall_mem_singleton.2 (by decide +kernel), rfl⟩
  have hone : numberPattern.Matches ['1'] := by decide +kernel
  have ha : stringPattern.Matches ['"', 'a', '"'] := by decide +kernel
  refine ⟨g, hg, r, hr, (hv _).2 ⟨_, .refl _, ?_⟩⟩
  exact .elements ⟨_, rfl, hspace⟩ (.number hone hspace)
    (.more ⟨_, rfl, .refl _⟩ (.string ha (.refl _)) .done) ⟨_, rfl, .refl _⟩

end Descent.Json
