import Descent.Calculator
import Descent.Proofs.Automata
import Descent.Proofs.Readings

/-!
# Values of expressions: `make_calculator`

An expression is a tree; its value is that of its parts, with the operators of a chain applied from
the left, and its tokens may have any white space around them. Main theorem
`Calculator.evaluates_exactly`: a run over a text ends, and succeeds with a value if and only if the
text is an expression of this value. A sign belongs to a number only where an operand has to begin,
and what may follow an operand makes no number longer.
-/

namespace Descent.Calculator

open Regex Regex.Pattern TextGrammar

variable {ν : Type}

/-! ## Trees -/

/-- Products are chains of atoms, and sums are chains of products. -/
inductive Level
  | product
  | sum

def Level.symbol : Level → (inverse : Bool) → Char
  | product, false => '*'
  | product, true => '/'
  | sum, false => '+'
  | sum, true => '-'

def Level.label : Level → String
  | product => "'*' or '/'"
  | sum => "'+' or '-'"

def Arithmetic.operation (a : Arithmetic ν) : Level → (inverse : Bool) → ν → ν → ν
  | .product, false => a.mul
  | .product, true => a.div
  | .sum, false => a.add
  | .sum, true => a.sub

abbrev Literal := {s : String // numberPattern.Matches s.toList}

mutual
/-- What the operators of a level stand between. -/
inductive Operand : Level → Type
  | number (literal : Literal) : Operand .product
  | parens (inner : Chain .sum) : Operand .product
  | root (inner : Chain .sum) : Operand .product
  | product (inner : Chain .product) : Operand .sum

/-- An operand, and any number of further ones. -/
inductive Chain : Level → Type
  | mk {l : Level} (first : Operand l) (rest : Steps l) : Chain l

/-- Operands with an operator before each. -/
inductive Steps : Level → Type
  | nil {l : Level} : Steps l
  | cons {l : Level} (inverse : Bool) (x : Operand l) (rest : Steps l) : Steps l
end

abbrev Expression := Chain .sum

mutual
def Operand.value (a : Arithmetic ν) : {l : Level} → Operand l → ν
  | _, .number n => a.ofText n
  | _, .parens inner => inner.value a
  | _, .root inner => a.sqrt (inner.value a)
  | _, .product inner => inner.value a

/-- The operators are applied from the left. -/
def Chain.value (a : Arithmetic ν) : {l : Level} → Chain l → ν
  | _, .mk first rest => (rest.values a).foldl (fun acc step => step.1 acc step.2) (first.value a)

/-- What each step does, and to which value. -/
def Steps.values (a : Arithmetic ν) : {l : Level} → Steps l → List ((ν → ν → ν) × ν)
  | _, .nil => []
  | l, .cons inverse x rest => (a.operation l inverse, x.value a) :: rest.values a
end

mutual
/-- The tokens that an operand is written with. -/
def Operand.tokens : {l : Level} → Operand l → List String
  | _, .number n => [n]
  | _, .parens inner => "(" :: (inner.tokens ++ [")"])
  | _, .root inner => "sqrt" :: "(" :: (inner.tokens ++ [")"])
  | _, .product inner => inner.tokens

def Chain.tokens : {l : Level} → Chain l → List String
  | _, .mk first rest => first.tokens ++ rest.tokens

def Steps.tokens : {l : Level} → Steps l → List String
  | _, .nil => []
  | l, .cons inverse x rest => (l.symbol inverse).toString :: (x.tokens ++ rest.tokens)
end

/-! ## Layouts -/

/-- The tokens one after the other, with any white space after each, and then `t'`. -/
def Laid : List String → List Char → List Char → Prop
  | [], t, t' => t = t'
  | s :: rest, t, t' => ∃ u, Lexeme s t u ∧ Laid rest u t'

/-- White space, and then the tokens of the expression, with any white space after each. -/
def Expression.Layout (e : Expression) (text : List Char) : Prop :=
  ∃ t, Blanks text t ∧ Laid e.tokens t []

variable {a : Arithmetic ν} {ss rest : List String} {s : String} {t t' u w : List Char} {l : Level}
  {c d : TextCursor} {v : ν}

theorem laid_append : Laid (ss ++ rest) t t' ↔ ∃ u, Laid ss t u ∧ Laid rest u t' := by
  induction ss generalizing t with
  | nil => simp [Laid]
  | cons s ss ih =>
    simp only [List.cons_append, Laid, ih]
    constructor
    · rintro ⟨x, hs, u, hss, hrest⟩
      exact ⟨u, ⟨x, hs, hss⟩, hrest⟩
    · rintro ⟨u, ⟨x, hs, hss⟩, hrest⟩
      exact ⟨x, hs, u, hss, hrest⟩

theorem toList_symbol (l : Level) (inverse : Bool) :
    (l.symbol inverse).toString.toList = [l.symbol inverse] :=
  String.toList_singleton _

theorem laid_singleton : Laid [s] t t' ↔ Lexeme s t t' := by simp [Laid]

/-! ## The definition -/

/-- What numbers begin with. -/
def numberStarts : CharSet := .unions [.range '0' '9', .ofList ['+', '-', '.']]

theorem lexical_number : Lexical numberPattern numberStarts numberMore := by decide +kernel

def leftmost : Finder := numberPattern.ways.atStart.first

def expression (a : Arithmetic ν) : TextGrammar [] ν := .fix 0 (sum leftmost a)

/-- The alternatives for an atom, in which expressions are read by `q`. -/
def alternatives (a : Arithmetic ν) (q : TextGrammar [] ν) (i : Fin 3) : TextGrammar [] ν :=
  match i with
  | 0 => number leftmost a
  | 1 => parens q
  | 2 => root a q

/-- One of the operators of a level. -/
def operatorOf (a : Arithmetic ν) (l : Level) : TextGrammar [] (ν → ν → ν) :=
  operator l.label (l.symbol false) (l.symbol true) (a.operation l false) (a.operation l true)

/-- What the operators of a level stand between. -/
def operand (a : Arithmetic ν) : Level → TextGrammar [] ν
  | .product => atom leftmost a (expression a)
  | .sum => .chainLeft (atom leftmost a (expression a)) (operatorOf a .product)

def chain (a : Arithmetic ν) (l : Level) : TextGrammar [] ν :=
  .chainLeft (operand a l) (operatorOf a l)

theorem expression_returns_iff {r : Reply TextCursor ν} :
    (expression a).Returns c r ↔ (chain a .sum).Returns c r := by
  refine Grammar.fix_returns_iff (fun _ => rfl) fun n => ?_
  have hatom : (Grammar.run n (atom leftmost a (.ref .here))
      (Env.cons (Grammar.run n (expression a) Env.nil) Env.nil) : Parser TextCursor ν) =
        (atom leftmost a (expression a)).parser n := by
    show Parser.choice _ (List.ofFn fun i => _) = Parser.choice _ (List.ofFn fun i => _)
    congr 2
    funext i
    match i with
    | 0 | 1 | 2 => rfl
  exact congrArg (fun p => Parser.chainLeft n (Parser.chainLeft n p
    ((operatorOf a .product).parser n)) ((operatorOf a .sum).parser n)) hatom

/-! ## What is read is an expression -/

theorem of_operatorOf_ok {f : ν → ν → ν} (h : (operatorOf a l).Returns c ⟨.ok f, d⟩) :
    ∃ inverse, Lexeme (l.symbol inverse).toString c.after d.after ∧ a.operation l inverse = f := by
  obtain ⟨i, hi⟩ := of_choice_ok h
  match i with
  | 0 =>
    obtain ⟨_, hx, rfl⟩ := Grammar.map_ok_iff.1 hi
    exact ⟨false, of_charToken_ok (toList_symbol l _) hx, rfl⟩
  | 1 =>
    obtain ⟨_, hx, rfl⟩ := Grammar.map_ok_iff.1 hi
    exact ⟨true, of_charToken_ok (toList_symbol l _) hx, rfl⟩

/-- What `p` reads with fewer than `k` characters ahead is an expression of its value. -/
def SoundBelow (a : Arithmetic ν) (p : TextGrammar [] ν) (k : Nat) : Prop :=
  ∀ ⦃c d : TextCursor⦄ ⦃v : ν⦄, c.after.length < k → p.Returns c ⟨.ok v, d⟩ →
    ∃ e : Expression, Laid e.tokens c.after d.after ∧ e.value a = v

theorem atom_sound {q : TextGrammar [] ν} {k : Nat} (hq : SoundBelow a q k)
    (hc : c.after.length < k + 1) (h : (atom leftmost a q).Returns c ⟨.ok v, d⟩) :
    ∃ x : Operand .product, Laid x.tokens c.after d.after ∧ x.value a = v := by
  obtain ⟨i, hi⟩ := of_choice_ok h
  match i with
  | 0 =>
    obtain ⟨s, hs, rfl⟩ := Grammar.map_ok_iff.1 (Grammar.named_ok_iff.1 hi)
    obtain ⟨w, u, hw, rfl, ha, hb⟩ := lexical_number.of_lexeme_ok hs
    have ht : Lexeme (String.ofList w) c.after d.after := ⟨u, by rw [String.toList_ofList, ha], hb⟩
    have hd : numberPattern.Matches (String.ofList w).toList := by rwa [String.toList_ofList]
    exact ⟨.number ⟨_, hd⟩, laid_singleton.2 ht, rfl⟩
  | 1 =>
    obtain ⟨b, _, hinner, hclose⟩ := Grammar.left_ok_iff.1 hi
    obtain ⟨_, x, hopen, hinner⟩ := Grammar.right_ok_iff.1 hinner
    have hopen := of_charToken_ok (s := "(") rfl hopen
    have hlt := hopen.length_lt (by decide)
    obtain ⟨e, he, rfl⟩ := hq (by omega) hinner
    have hclose := laid_singleton.2 (of_charToken_ok (s := ")") rfl hclose)
    exact ⟨.parens e, ⟨_, hopen, laid_append.2 ⟨_, he, hclose⟩⟩, rfl⟩
  | 2 =>
    obtain ⟨_, hm, rfl⟩ := Grammar.map_ok_iff.1 hi
    obtain ⟨b, _, hinner, hclose⟩ := Grammar.left_ok_iff.1 hm
    obtain ⟨_, x, hopen, hinner⟩ := Grammar.right_ok_iff.1 hinner
    obtain ⟨y, hroot, hopen⟩ := Grammar.pair_ok_iff.1 hopen
    have hroot := of_token_ok hroot
    have hopen := of_charToken_ok (s := "(") rfl hopen
    have hlt := hroot.length_lt (by decide)
    have hlt' := hopen.length_lt (by decide)
    obtain ⟨e, he, rfl⟩ := hq (by omega) hinner
    have hclose := laid_singleton.2 (of_charToken_ok (s := ")") rfl hclose)
    exact ⟨.root e, ⟨_, hroot, _, hopen, laid_append.2 ⟨_, he, hclose⟩⟩, rfl⟩

/-- The operators and operands that a loop reads. -/
theorem steps_of_many {steps : List ((ν → ν → ν) × ν)}
    (h : Many (fun t step t' => ∃ inverse, ∃ x : Operand l,
      Laid ((l.symbol inverse).toString :: x.tokens) t t' ∧
        (a.operation l inverse, x.value a) = step) t steps t') :
    ∃ rest : Steps l, Laid rest.tokens t t' ∧ rest.values a = steps := by
  induction h with
  | nil => exact ⟨.nil, rfl, rfl⟩
  | cons hstep _ ih =>
    obtain ⟨inverse, x, hx, rfl⟩ := hstep
    obtain ⟨rest, hrest, rfl⟩ := ih
    exact ⟨.cons inverse x rest, laid_append.2 ⟨_, hx, hrest⟩, rfl⟩

/-- If operands are what they should be, so are chains of them. -/
theorem chain_sound {p : TextGrammar [] ν} {k : Nat}
    (hp : ∀ {c d : TextCursor} {v : ν}, c.after.length < k → p.Returns c ⟨.ok v, d⟩ →
      ∃ x : Operand l, Laid x.tokens c.after d.after ∧ x.value a = v)
    (hc : c.after.length < k)
    (h : (Grammar.chainLeft p (operatorOf a l)).Returns c ⟨.ok v, d⟩) :
    ∃ e : Chain l, Laid e.tokens c.after d.after ∧ e.value a = v := by
  obtain ⟨_, steps, b, hfirst, hl, rfl⟩ := chainLeft_ok_iff.1 h
  have hb := length_after_le hfirst
  obtain ⟨x, hx, rfl⟩ := hp hc hfirst
  obtain ⟨rest, hrest, rfl⟩ := steps_of_many (many_of_loop (fun {y z step} hy hr => by
    obtain ⟨m, hop, hv⟩ := Grammar.pair_ok_iff.1 hr
    have hm := length_after_le hop
    obtain ⟨inverse, htoken, hf⟩ := of_operatorOf_ok hop
    obtain ⟨x, hx, hv⟩ := hp (by omega) hv
    exact ⟨inverse, x, ⟨_, htoken, hx⟩, Prod.ext hf hv⟩) hl)
  exact ⟨.mk x rest, laid_append.2 ⟨_, hx, hrest⟩, rfl⟩

/-- Expressions inside of others have fewer characters ahead: by induction on how many there are. -/
theorem expression_sound (a : Arithmetic ν) (k : Nat) : SoundBelow a (expression a) k := by
  induction k with
  | zero => exact fun _ _ _ hc => absurd hc (Nat.not_lt_zero _)
  | succ k ih =>
    intro c d v hc h
    refine chain_sound (k := k + 1) (fun hc h => ?_) hc (expression_returns_iff.1 h)
    obtain ⟨e, he, rfl⟩ := chain_sound (k := k + 1) (l := .product) (atom_sound ih) hc h
    exact ⟨.product e, he, rfl⟩

/-! ## Every expression is read -/

/-- What the alternative for an atom begins with. -/
def starts : Fin 3 → CharSet
  | 0 => numberStarts
  | 1 => .single '('
  | 2 => .single 's'

def symbols (l : Level) : CharSet := .ofList [l.symbol false, l.symbol true]

/-- What follows a chain of the level. -/
def following : Level → CharSet
  | .product => .ofList ['+', '-', ')']
  | .sum => .single ')'

/-- What follows an operand of the level. -/
def continuing (l : Level) : CharSet := .union (symbols l) (following l)

theorem fresh_of_continuing (h : Starts (continuing l) t) : Fresh t := by
  refine h.fresh ?_
  cases l <;> decide

theorem continuing_of_following (h : Starts (following l) t) : Starts (continuing l) t := by
  refine h.mono ?_
  cases l <;> decide

theorem continuing_of_symbol {inverse : Bool} (h : Lexeme (l.symbol inverse).toString t t') :
    Starts (continuing l) t := by
  refine h.starts (x := l.symbol inverse) (by rw [toList_symbol]; rfl) ?_
  cases l <;> cases inverse <;> decide

theorem reads_operatorOf {inverse : Bool} (h : Lexeme (l.symbol inverse).toString t t')
    (ht : Fresh t') : Reads (operatorOf a l) t (a.operation l inverse) t' := by
  have hr := (h.reads_char (toList_symbol l inverse) ht).map (f := fun _ => a.operation l inverse)
  cases inverse with
  | false => exact .choice 0 nofun hr
  | true =>
    refine .choice 1 (fun j hj => ?_) hr
    obtain rfl : j = 0 := by omega
    have hs : Starts (.single (l.symbol true)) t := by
      refine h.starts (x := l.symbol true) (by rw [toList_symbol]; rfl) ?_
      cases l <;> decide
    refine (refuses_charToken (.single (l.symbol false)) ?_ (hs.avoids ?_)).map <;>
      cases l <;> decide

theorem refuses_operatorOf (h : Starts (following l) t) : Refuses (operatorOf a l) t := by
  have hs : Avoids (symbols l) t := by
    refine h.avoids ?_
    cases l <;> decide
  refine .choice fun i => ?_
  match i with
  | 0 => exact (refuses_charToken _ (by cases l <;> decide) hs).map
  | 1 => exact (refuses_charToken _ (by cases l <;> decide) hs).map

/-- An alternative that cannot begin with the next character fails where it began. -/
theorem refuses_alternative {q : TextGrammar [] ν} (i : Fin 3) (h : Avoids (starts i) t) :
    Refuses (alternatives a q i) t := by
  match i with
  | 0 => exact (lexical_number.refuses h).lexeme.map.named
  | 1 => exact (refuses_charToken _ rfl h).right.left
  | 2 => exact (refuses_token _ (x := 's') rfl rfl h).pair.right.left.map

/-- Only one alternative can begin with the next character. -/
theorem reads_atom {q : TextGrammar [] ν} (i : Fin 3) (hi : Starts (starts i) t)
    (h : Reads (alternatives a q i) t v t') : Reads (atom leftmost a q) t v t' := by
  have hapart : ∀ i j, j < i → (starts i).Apart (starts j) := by decide
  exact .choice i (fun j hj => refuses_alternative j (hi.avoids (hapart i j hj))) h

theorem reads_expression (h : Reads (chain a .sum) t v t') : Reads (expression a) t v t' := by
  intro c hc
  obtain ⟨d, hr, hd⟩ := h hc
  exact ⟨d, expression_returns_iff.2 hr, hd⟩

theorem starts_visible : ∀ i, (starts i).Visible := by decide

mutual
theorem Operand.starts : {l : Level} → (x : Operand l) → {t t' : List Char} → Laid x.tokens t t' →
    ∃ i, Starts (Calculator.starts i) t
  | _, .number n, t, t', h => by
    obtain ⟨u, rfl, -⟩ := laid_singleton.1 h
    exact ⟨0, lexical_number.starts n.2 u⟩
  | _, .parens inner, t, t', ⟨_, h, _⟩ => ⟨1, h.starts rfl rfl⟩
  | _, .root inner, t, t', ⟨_, h, _⟩ => ⟨2, h.starts rfl rfl⟩
  | _, .product inner, t, t', h => inner.starts h

theorem Chain.starts : {l : Level} → (e : Chain l) → {t t' : List Char} → Laid e.tokens t t' →
    ∃ i, Starts (Calculator.starts i) t
  | _, .mk first rest, t, t', h => by
    obtain ⟨_, h, _⟩ := laid_append.1 h
    exact first.starts h
end

theorem Operand.fresh (x : Operand l) (h : Laid x.tokens t t') : Fresh t := by
  obtain ⟨i, hi⟩ := x.starts h
  exact hi.fresh (starts_visible i)

theorem Chain.fresh (e : Chain l) (h : Laid e.tokens t t') : Fresh t := by
  obtain ⟨i, hi⟩ := e.starts h
  exact hi.fresh (starts_visible i)

theorem Steps.continuing (rest : Steps l) (h : Laid rest.tokens t t')
    (ht : Starts (following l) t') : Starts (continuing l) t := by
  cases rest with
  | nil =>
    obtain rfl : t = t' := h
    exact continuing_of_following ht
  | cons inverse x rest =>
    obtain ⟨u, hs, -⟩ := h
    exact continuing_of_symbol hs

mutual
/-- An operand is read up to what follows it: by induction on the tree. -/
theorem Operand.reads (a : Arithmetic ν) : {l : Level} → (x : Operand l) → {t t' : List Char} →
    Laid x.tokens t t' → Starts (Calculator.continuing l) t' →
    Reads (operand a l) t (x.value a) t'
  | _, .number n, t, t', h, ht => by
    obtain ⟨u, rfl, hb⟩ := laid_singleton.1 h
    have hmore : Avoids numberMore t' := ht.avoids (by decide)
    have hr := lexical_number.reads_lexeme numberText (by decide) n.2 hb hmore
      (fresh_of_continuing ht)
    rw [String.ofList_toList] at hr
    exact reads_atom 0 (lexical_number.starts n.2 u) hr.map.named
  | _, .parens inner, t, t', ⟨u, hopen, h⟩, ht => by
    obtain ⟨x, he, hclose⟩ := laid_append.1 h
    have hclose := laid_singleton.1 hclose
    have hr := reads_expression (inner.reads a he (hclose.starts rfl rfl))
    have hwrap := ((hopen.reads_char rfl (inner.fresh he)).right hr).left
      (hclose.reads_char rfl (fresh_of_continuing ht))
    exact reads_atom 1 (hopen.starts rfl rfl) hwrap
  | _, .root inner, t, t', ⟨s, hroot, u, hopen, h⟩, ht => by
    obtain ⟨x, he, hclose⟩ := laid_append.1 h
    have hclose := laid_singleton.1 hclose
    have hs : Starts (.single '(') s := hopen.starts rfl rfl
    have hr := reads_expression (inner.reads a he (hclose.starts rfl rfl))
    have hbefore := (hroot.reads (hs.fresh (by decide))).pair
      (hopen.reads_char rfl (inner.fresh he))
    have hwrap := (hbefore.right hr).left (hclose.reads_char rfl (fresh_of_continuing ht))
    exact reads_atom 2 (hroot.starts rfl rfl) hwrap.map
  | _, .product inner, t, t', h, ht => inner.reads a h (ht.mono (by decide))

theorem Chain.reads (a : Arithmetic ν) : {l : Level} → (e : Chain l) → {t t' : List Char} →
    Laid e.tokens t t' → Starts (following l) t' → Reads (chain a l) t (e.value a) t'
  | _, .mk first rest, t, t', h, ht => by
    obtain ⟨u, hfirst, hrest⟩ := laid_append.1 h
    exact (first.reads a hfirst (rest.continuing hrest ht)).chainLeft (rest.readsAll a hrest ht)

theorem Steps.readsAll (a : Arithmetic ν) : {l : Level} → (rest : Steps l) → {t t' : List Char} →
    Laid rest.tokens t t' → Starts (following l) t' →
    ReadsAll (.pair (operatorOf a l) (operand a l)) t (rest.values a) t'
  | _, .nil, t, t', h, ht => by
    obtain rfl : t = t' := h
    exact (refuses_operatorOf ht).pair.readsAll
  | _, .cons inverse x rest, t, t', h, ht => by
    obtain ⟨u, hs, h⟩ := h
    obtain ⟨y, hx, hrest⟩ := laid_append.1 h
    have hr := x.reads a hx (rest.continuing hrest ht)
    refine .cons ((reads_operatorOf hs (x.fresh hx)).pair hr) ?_ (rest.readsAll a hrest ht)
    exact Nat.lt_of_le_of_lt hr.length_le (hs.length_lt (by rw [toList_symbol]; nofun))
end

/-! ## Whole texts -/

/-- Other expressions are only read inside of parentheses. -/
theorem grammar_guarded (a : Arithmetic ν) :
    (grammar leftmost a).Guarded TextCursor .nil fun _ _ => False := by
  have hopen {Γ : List Type} {K : Enclosing Char .text Γ} :
      (lexeme (char '(') : TextGrammar Γ Char).Advances TextCursor K :=
    advances_of_shorter (lexeme (char '(')) (fun _ => rfl) fun h =>
      (of_charToken_ok (s := "(") rfl h).length_lt (by decide)
  have hroot {Γ : List Type} {K : Enclosing Char .text Γ} :
      (.pair (lexeme (string "sqrt")) (lexeme (char '(')) :
        TextGrammar Γ (String × Char)).Advances TextCursor K := by
    refine advances_of_shorter (.pair (lexeme (string "sqrt")) (lexeme (char '('))) (fun _ => rfl)
      fun h => ?_
    obtain ⟨b, hs, ho⟩ := Grammar.pair_ok_iff.1 h
    exact Nat.lt_of_le_of_lt (length_after_le ho) ((of_token_ok hs).length_lt (by decide))
  have hoperator {Γ : List Type} {K : Enclosing Char .text Γ} {free : ∀ β, Var Γ β → Prop}
      (label : String) (x y : Char) (f g : ν → ν → ν) :
      (operator label x y f g : TextGrammar Γ (ν → ν → ν)).Guarded TextCursor K free := by
    intro i
    match i with
    | 0 | 1 => exact ⟨trivial, trivial⟩
  refine ⟨trivial, ⟨fun i => ?_, hoperator _ _ _ _ _⟩, hoperator _ _ _ _ _⟩
  match i with
  | 0 => exact ⟨trivial, trivial⟩
  | 1 => exact ⟨⟨⟨trivial, trivial⟩, .inr hopen⟩, trivial, trivial⟩
  | 2 =>
    refine ⟨⟨fun j => ?_, .inr hroot⟩, trivial, trivial⟩
    match j with
    | 0 | 1 => exact ⟨trivial, trivial⟩

theorem grammar_ok_iff :
    (∃ d, (grammar leftmost a).Returns c ⟨.ok v, d⟩) ↔
      ∃ e : Expression, e.Layout c.after ∧ e.value a = v := by
  constructor
  · rintro ⟨d, h⟩
    obtain ⟨h, hd⟩ := finish_ok_iff.1 h
    obtain ⟨_, b, hs, hv⟩ := Grammar.right_ok_iff.1 h
    obtain ⟨e, he, hv⟩ := expression_sound a _ (Nat.lt_succ_self _) hv
    rw [hd] at he
    exact ⟨e, ⟨b.after, of_skip_ok hs, he⟩, hv⟩
  · rintro ⟨e, ⟨t, hb, he⟩, rfl⟩
    have hr := reads_expression (e.reads a he (starts_nil _))
    obtain ⟨d, h, hd⟩ := (reads_skip hb (e.fresh he)).right hr rfl
    exact ⟨d, finish_ok_iff.2 ⟨h, hd⟩⟩

/-- A run over a text ends, and succeeds with a value if and only if the text is a layout of an
expression that has it. -/
theorem evaluates_exactly {E : Engine} (hnumber : E.Reads numberText numberPattern)
    (a : Arithmetic ν) (text : List Char) :
    ∃ g, grammar? E a = some g ∧
      ∃ r, (∀ n, text.length < n → g.parser n (TextCursor.ofText text) = some r) ∧
        ∀ v, r.result = .ok v ↔ ∃ e : Expression, e.Layout text ∧ e.value a = v := by
  obtain ⟨r, hr, hv⟩ := run_of_guarded (grammar_guarded a) (.ofText text)
  refine ⟨grammar leftmost a, ?_, r, hr, fun v => (hv v).trans grammar_ok_iff⟩
  unfold Engine.Reads at hnumber
  rw [grammar?, hnumber]
  rfl

/-- Expressions in written form, with a parenthesis around each operation. -/
def spelledOut : Arithmetic String where
  ofText := id
  add x y := "(" ++ x ++ " + " ++ y ++ ")"
  sub x y := "(" ++ x ++ " - " ++ y ++ ")"
  mul x y := "(" ++ x ++ " * " ++ y ++ ")"
  div x y := "(" ++ x ++ " / " ++ y ++ ")"
  sqrt x := "sqrt " ++ x

def ofLiteral (n : Literal) : Operand .sum := .product (.mk (.number n) .nil)

/-- One minus two minus minus three. -/
def differences : Expression :=
  .mk (ofLiteral ⟨"1", by decide +kernel⟩) (.cons true (ofLiteral ⟨"2", by decide +kernel⟩)
    (.cons true (ofLiteral ⟨"-3", by decide +kernel⟩) .nil))

/-- What stands between two operands is an operator, and what stands before one is its sign. -/
theorem differences_evaluated : Engine.automata.Reads numberText numberPattern ∧
    ∃ g, grammar? Engine.automata spelledOut = some g ∧
      ∃ r, (∀ n, 7 < n → g.parser n (TextCursor.ofString "1-2 --3") = some r) ∧
        r.result = .ok "((1 - 2) - -3)" := by
  have hnumber : Engine.automata.Reads numberText numberPattern :=
    Engine.automata_reads (by decide +kernel)
  obtain ⟨g, hg, r, hr, hv⟩ := evaluates_exactly hnumber spelledOut "1-2 --3".toList
  have hspace {t : List Char} : Blanks (' ' :: t) t :=
    ⟨[' '], List.forall_mem_singleton.2 (by decide +kernel), rfl⟩
  have hlayout : differences.Layout "1-2 --3".toList :=
    ⟨_, .refl _, _, ⟨_, by decide +kernel, .refl _⟩, _, ⟨_, rfl, .refl _⟩, _, ⟨_, rfl, hspace⟩,
      _, ⟨_, rfl, .refl _⟩, _, ⟨_, rfl, .refl _⟩, rfl⟩
  exact ⟨hnumber, g, hg, r, hr, (hv _).2 ⟨differences, hlayout, by decide +kernel⟩⟩

end Descent.Calculator
