import Descent.Grammar.Basic

/-!
# Further combinators

Grammars put together from the basic ones, for elements of any kind (`satisfy`, `match_item`,
`item`, `constant`, `option`, `wrap`, `list`, `tuple`).
-/

namespace Descent.Grammar

variable {ε : Type} {S : Signature} {Γ : List Type} {α β γ δ : Type}

def satisfy (p : ε → Bool) : Grammar ε S Γ ε :=
  .item "satisfy" fun x => if p x then .ok () else .error "element does not match predicate"

/-- An element that a rule accepts (`match_item`). -/
def matching (rule : ε → Except String Unit) : Grammar ε S Γ ε := .item "item" rule

/-- The value `v` whenever `p` succeeds (`constant`). -/
def constant (p : Grammar ε S Γ α) (v : β) : Grammar ε S Γ β := .map (fun _ => v) p

/-- `p`, or the value `v` without consuming anything (`option`). -/
def orValue (v : α) (p : Grammar ε S Γ α) : Grammar ε S Γ α := .map (·.getD v) (.opt p)

/-- `p` between `l` and `r`. -/
def wrap (l : Grammar ε S Γ α) (p : Grammar ε S Γ β) (r : Grammar ε S Γ γ) : Grammar ε S Γ β :=
  .left (.right l p) r

/-- Parsers of one type in order, each named. -/
def list {n : Nat} (ps : Fin n → Grammar ε S Γ α) : Grammar ε S Γ (List α) :=
  .map (fun vs => List.ofFn vs) (.all .square ps)

/-- Parsers of one type in order. -/
def tuple {n : Nat} (ps : Fin n → Grammar ε S Γ α) : Grammar ε S Γ (List α) :=
  .map (fun vs => List.ofFn vs) (.all .round ps)

def pairTypes (α β : Type) (i : Fin 2) : Type := if i = 0 then α else β

def pair (p : Grammar ε S Γ α) (q : Grammar ε S Γ β) : Grammar ε S Γ (α × β) :=
  .map (fun vs => (vs 0, vs 1)) (.all .round (τ := pairTypes α β) fun
    | 0 => p
    | 1 => q)

/-- One of two grammars, by index. -/
def both (p q : Grammar ε S Γ α) : Fin 2 → Grammar ε S Γ α
  | 0 => p
  | 1 => q

/-- The grammars of a list, by index. -/
def family (ps : List (Grammar ε S Γ α)) : Fin ps.length → Grammar ε S Γ α := fun i => ps[i]

section Elements

variable [Element ε] [DecidableEq ε]

def element (x : ε) : Grammar ε S Γ ε :=
  .item (Element.shown x) fun y =>
    if y = x then .ok () else .error ("expected " ++ Element.shown x)

end Elements
end Descent.Grammar
