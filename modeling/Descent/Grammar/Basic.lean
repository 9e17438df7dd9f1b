import Descent.Parser.Chain

/-!
# Grammars

A grammar is a parser as data: a tree of combinators with functions only where the user of the
library supplies them. Recursion is a binder: `fix` binds a variable that stands for the parser
being defined, and `ref` (`FixRef`) is an occurrence of such a variable, as an index into the types
of the enclosing definitions.

What can be read is open. A grammar over elements alone runs on every cursor; a `Signature` adds
parsers for one kind of input (`prim`) and ways to look at the start and the end of a run
(`scope`).
-/

namespace Descent

/-- An occurrence of a bound parser of type `α` under binders of the types `Γ`, innermost
first. -/
inductive Var : List Type → Type → Type 1
  | here {Γ : List Type} {α : Type} : Var (α :: Γ) α
  | there {Γ : List Type} {α β : Type} : Var Γ α → Var (β :: Γ) α

/-- What a kind of input offers beyond reading elements. -/
structure Signature where
  /-- Parsers of its own. -/
  Prim : Type → Type 1
  primName : {α : Type} → Prim α → String
  /-- What can be made of the value of a run together with its two ends. -/
  Scope : Type → Type → Type 1

def Signature.plain : Signature where
  Prim _ := PEmpty
  primName p := nomatch p
  Scope _ _ := PEmpty

/-- How the names of a sequence of parsers are put together. -/
inductive Brackets
  | round
  | square

/-- A parser of `α`, as data, under binders of the types `Γ`. -/
inductive Grammar (ε : Type) (S : Signature) : List Type → Type → Type 1
  /-- One element that a rule accepts. -/
  | item {Γ : List Type} (label : String) (rule : ε → Except String Unit) : Grammar ε S Γ ε
  /-- Any element. -/
  | any {Γ : List Type} : Grammar ε S Γ ε
  /-- Success with a value. -/
  | ret {Γ : List Type} {α : Type} (v : α) : Grammar ε S Γ α
  /-- Failure with a message. -/
  | fail {Γ : List Type} {α : Type} (message : String) : Grammar ε S Γ α
  /-- The end of the input. -/
  | eof {Γ : List Type} : Grammar ε S Γ Unit
  /-- All of the input. -/
  | finish {Γ : List Type} {α : Type} (p : Grammar ε S Γ α) : Grammar ε S Γ α
  | map {Γ : List Type} {α β : Type} (f : α → β) (p : Grammar ε S Γ α) : Grammar ε S Γ β
  | tryMap {Γ : List Type} {α β : Type} (f : α → Except String β) (p : Grammar ε S Γ α) :
    Grammar ε S Γ β
  | check {Γ : List Type} {α : Type} (ok : α → Bool) (message : α → String)
    (p : Grammar ε S Γ α) : Grammar ε S Γ α
  /-- A parser chosen by the value of the one before it. -/
  | bind {Γ : List Type} {α β : Type} (p : Grammar ε S Γ α) (f : α → Grammar ε S Γ β) :
    Grammar ε S Γ β
  /-- Parsers in order, with all their values. -/
  | all {Γ : List Type} (brackets : Brackets) {n : Nat} {τ : Fin n → Type}
    (ps : (i : Fin n) → Grammar ε S Γ (τ i)) : Grammar ε S Γ ((i : Fin n) → τ i)
  /-- `p`, then `q`; the value of `q`. -/
  | right {Γ : List Type} {α β : Type} (p : Grammar ε S Γ α) (q : Grammar ε S Γ β) :
    Grammar ε S Γ β
  /-- `p`, then `q`; the value of `p`. -/
  | left {Γ : List Type} {α β : Type} (p : Grammar ε S Γ α) (q : Grammar ε S Γ β) :
    Grammar ε S Γ α
  | or {Γ : List Type} {α : Type} (p q : Grammar ε S Γ α) : Grammar ε S Γ α
  | attempt {Γ : List Type} {α : Type} (p : Grammar ε S Γ α) : Grammar ε S Γ α
  | choice {Γ : List Type} {α : Type} (label : String) {n : Nat}
    (ps : Fin n → Grammar ε S Γ α) : Grammar ε S Γ α
  | tryChoice {Γ : List Type} {α : Type} (label : String) {n : Nat}
    (ps : Fin n → Grammar ε S Γ α) : Grammar ε S Γ α
  | opt {Γ : List Type} {α : Type} (p : Grammar ε S Γ α) : Grammar ε S Γ (Option α)
  | lookAhead {Γ : List Type} {α : Type} (p : Grammar ε S Γ α) : Grammar ε S Γ α
  | named {Γ : List Type} {α : Type} (label : String) (p : Grammar ε S Γ α) : Grammar ε S Γ α
  | many {Γ : List Type} {α : Type} (p : Grammar ε S Γ α) : Grammar ε S Γ (List α)
  | many1 {Γ : List Type} {α : Type} (p : Grammar ε S Γ α) : Grammar ε S Γ (List α)
  /-- `p` exactly `n` times, for values of so many bytes each. -/
  | count {Γ : List Type} {α : Type} (size n : Nat) (p : Grammar ε S Γ α) : Grammar ε S Γ (List α)
  | sepBy {Γ : List Type} {α β : Type} (sep : Grammar ε S Γ β) (p : Grammar ε S Γ α) :
    Grammar ε S Γ (List α)
  | sepBy1 {Γ : List Type} {α β : Type} (sep : Grammar ε S Γ β) (p : Grammar ε S Γ α) :
    Grammar ε S Γ (List α)
  | manyTill {Γ : List Type} {α β : Type} (p : Grammar ε S Γ α) (stop : Grammar ε S Γ β) :
    Grammar ε S Γ (List α)
  | skipMany {Γ : List Type} {α : Type} (p : Grammar ε S Γ α) : Grammar ε S Γ Unit
  | skipMany1 {Γ : List Type} {α : Type} (p : Grammar ε S Γ α) : Grammar ε S Γ Unit
  /-- Operands and operators, folded from the left. -/
  | chainLeft {Γ : List Type} {α : Type} (p : Grammar ε S Γ α) (op : Grammar ε S Γ (α → α → α)) :
    Grammar ε S Γ α
  /-- Operands and operators, folded from the right. -/
  | chainRight {Γ : List Type} {α : Type} (p : Grammar ε S Γ α)
    (op : Grammar ε S Γ (α → α → α)) : Grammar ε S Γ α
  /-- The parser that `body` defines in terms of itself. `cell` tells the recursive definitions
  of a grammar apart when their use is recorded. -/
  | fix {Γ : List Type} {α : Type} (cell : Nat) (body : Grammar ε S (α :: Γ) α) : Grammar ε S Γ α
  /-- A reference to an enclosing definition. -/
  | ref {Γ : List Type} {α : Type} (v : Var Γ α) : Grammar ε S Γ α
  | prim {Γ : List Type} {α : Type} (p : S.Prim α) : Grammar ε S Γ α
  | scope {Γ : List Type} {α β : Type} (s : S.Scope α β) (p : Grammar ε S Γ α) : Grammar ε S Γ β

namespace Grammar

variable {ε : Type} {S : Signature} {Γ : List Type} {α β : Type}

/-! ## Names -/

/-- Names with a comma between them, in brackets. -/
def Brackets.wrap (b : Brackets) (names : List String) : String :=
  match b with
  | .round => "(" ++ ", ".intercalate names ++ ")"
  | .square => "[" ++ ", ".intercalate names ++ "]"

/-- What every reference is called. -/
def referenceName : String := "fix"

/-- What a grammar is called in messages. A reference does not name its definition, whose name
would hold this one again. -/
def name : {Γ : List Type} → {α : Type} → Grammar ε S Γ α → String
  | _, _, item label _ => label
  | _, _, any => "any item"
  | _, _, ret _ => "ret"
  | _, _, fail _ => "fail"
  | _, _, eof => "end of input"
  | _, _, finish p | _, _, map _ p | _, _, tryMap _ p | _, _, check _ _ p | _, _, attempt p
  | _, _, scope _ p | _, _, fix _ p => p.name
  | _, _, bind p _ => p.name ++ ".bind(..)"
  | _, _, all brackets ps => Brackets.wrap brackets (List.ofFn fun i => (ps i).name)
  | _, _, right p q => q.name ++ ".preceded(" ++ p.name ++ ")"
  | _, _, left p q => p.name ++ ".terminated(" ++ q.name ++ ")"
  | _, _, or p q => p.name ++ " or " ++ q.name
  | _, _, choice label _ | _, _, tryChoice label _ | _, _, named label _ => label
  | _, _, opt p => p.name ++ ".opt()"
  | _, _, lookAhead p => p.name ++ ".look_ahead()"
  | _, _, many p => p.name ++ ".many0()"
  | _, _, many1 p => p.name ++ ".many1()"
  | _, _, count _ n p => p.name ++ s!".count({n})"
  | _, _, sepBy sep p | _, _, sepBy1 sep p => p.name ++ ".sep_by(" ++ sep.name ++ ")"
  | _, _, manyTill p stop => p.name ++ ".many_till(" ++ stop.name ++ ")"
  | _, _, skipMany p | _, _, skipMany1 p => p.name ++ ".skip_many()"
  | _, _, chainLeft p op => p.name ++ ".chain_l1(" ++ op.name ++ ")"
  | _, _, chainRight p op => p.name ++ ".chain_r1(" ++ op.name ++ ")"
  | _, _, ref _ => referenceName
  | _, _, prim p => S.primName p

/-- The recursive definitions that have to be built to tell a grammar's name, in the order in
which they are built: only those whose names are part of it. -/
def namingCells : {Γ : List Type} → {α : Type} → Grammar ε S Γ α → List Nat
  | _, _, item _ _ | _, _, any | _, _, ret _ | _, _, fail _ | _, _, eof | _, _, choice _ _
  | _, _, tryChoice _ _ | _, _, named _ _ | _, _, ref _ | _, _, prim _ => []
  | _, _, finish p | _, _, map _ p | _, _, tryMap _ p | _, _, check _ _ p | _, _, attempt p
  | _, _, scope _ p | _, _, bind p _ | _, _, opt p | _, _, lookAhead p | _, _, many p
  | _, _, many1 p | _, _, count _ _ p | _, _, skipMany p | _, _, skipMany1 p => p.namingCells
  | _, _, fix cell p => cell :: p.namingCells
  | _, _, all _ ps => (List.ofFn fun i => (ps i).namingCells).flatten
  | _, _, right p q => q.namingCells ++ p.namingCells
  | _, _, sepBy sep p | _, _, sepBy1 sep p => p.namingCells ++ sep.namingCells
  | _, _, left p q | _, _, manyTill p q => p.namingCells ++ q.namingCells
  | _, _, or p q => p.namingCells ++ q.namingCells
  | _, _, chainLeft p op | _, _, chainRight p op => p.namingCells ++ op.namingCells

end Grammar
end Descent
