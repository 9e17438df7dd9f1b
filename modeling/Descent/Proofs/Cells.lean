import Descent.Proofs.Surroundings

/-!
# Definitions in cells

A recursive definition sits in a cell. `fix` makes the cell and leaves it empty; the function that
builds the definition is called by `FixCell::get`, when somebody first parses with the `Fix` or with
a `FixRef` inside of it, or asks the `Fix` for its name. A grammar as it is in use is therefore not
a tree with binders: it is a tree that ends in links to cells (`Link`), and what a cell holds ends in
such links again (`Definitions`). A run finds out by looking at the cell.

What else goes on is the world that the run is amid. `get cell w` is what the cell is found to hold
in the world `w`, and the world after the look; a world is truthful if every cell is found to hold
what its function builds.
-/

namespace Descent

/-- A link to the cell of a definition, or a parser that the input offers. -/
inductive Link (S : Signature) (L : Nat → Type) : Type → Type 1
  /-- The definition itself (`Fix`). -/
  | own (cell : Nat) : Link S L (L cell)
  /-- The definition, from inside (`FixRef`). -/
  | back (cell : Nat) : Link S L (L cell)
  | prim {α : Type} (p : S.Prim α) : Link S L α

/-- The signature with links to cells in it; the parser in a cell is one of `L cell`. -/
def Signature.linked (S : Signature) (L : Nat → Type) : Signature where
  Prim := Link S L
  primName
    | .own _ | .back _ => Grammar.referenceName
    | .prim p => S.primName p
  Scope := S.Scope

/-- A grammar that ends in links. -/
abbrev Linked (ε : Type) (S : Signature) (L : Nat → Type) (α : Type) :=
  Grammar ε (S.linked L) [] α

/-- What cells may hold. -/
structure Definitions (ε : Type) (S : Signature) (L : Nat → Type) where
  /-- The `k`-th parser that may be in a cell. -/
  held : (cell k : Nat) → Linked ε S L (L cell)
  /-- Which of them the function of the cell builds. -/
  built : Nat → Nat

/-- The cells of the definitions around a grammar, innermost first. -/
inductive Binders (L : Nat → Type) : List Type → Type 1
  | nil : Binders L []
  | cons {Γ : List Type} (cell : Nat) (B : Binders L Γ) : Binders L (L cell :: Γ)

/-- The link that stands for a reference. -/
def Binders.link {S : Signature} {L : Nat → Type} :
    {Γ : List Type} → Binders L Γ → {α : Type} → Var Γ α → Link S L α
  | _, cons cell _, _, .here => .back cell
  | _, cons _ B, _, .there v => B.link v

section

variable {ε : Type} {S : Signature} {L : Nat → Type}

/-- `l` is the grammar `g` with its definitions in cells: every `fix` is a link to its cell, whose
function builds the body, and every reference inside of the body is a link back. Definitions with
the same cell are clones of one, since it is the same function that builds their bodies. -/
inductive Definitions.Links (P : Definitions ε S L) : {Γ : List Type} → Binders L Γ →
    {α : Type} → Grammar ε S Γ α → Linked ε S L α → Prop
  | item {Γ : List Type} {B : Binders L Γ} {label rule} :
    Links P B (.item label rule) (.item label rule)
  | any {Γ : List Type} {B : Binders L Γ} : Links P B .any .any
  | ret {Γ : List Type} {B : Binders L Γ} {α : Type} {v : α} : Links P B (.ret v) (.ret v)
  | fail {Γ : List Type} {B : Binders L Γ} {α : Type} {message} :
    Links P B (.fail message : Grammar ε S Γ α) (.fail message)
  | eof {Γ : List Type} {B : Binders L Γ} : Links P B .eof .eof
  | finish {Γ : List Type} {B : Binders L Γ} {α : Type} {p : Grammar ε S Γ α} {p'} :
    Links P B p p' → Links P B (.finish p) (.finish p')
  | map {Γ : List Type} {B : Binders L Γ} {α β : Type} {f : α → β} {p : Grammar ε S Γ α} {p'} :
    Links P B p p' → Links P B (.map f p) (.map f p')
  | tryMap {Γ : List Type} {B : Binders L Γ} {α β : Type} {f : α → Except String β}
    {p : Grammar ε S Γ α} {p'} : Links P B p p' → Links P B (.tryMap f p) (.tryMap f p')
  | check {Γ : List Type} {B : Binders L Γ} {α : Type} {ok message} {p : Grammar ε S Γ α} {p'} :
    Links P B p p' → Links P B (.check ok message p) (.check ok message p')
  | bind {Γ : List Type} {B : Binders L Γ} {α β : Type} {p : Grammar ε S Γ α} {p'}
    {f : α → Grammar ε S Γ β} {f'} : Links P B p p' → (∀ v, Links P B (f v) (f' v)) →
    Links P B (.bind p f) (.bind p' f')
  | all {Γ : List Type} {B : Binders L Γ} {brackets} {n : Nat} {τ : Fin n → Type}
    {ps : (i : Fin n) → Grammar ε S Γ (τ i)} {ps'} : (∀ i, Links P B (ps i) (ps' i)) →
    Links P B (.all brackets ps) (.all brackets ps')
  | right {Γ : List Type} {B : Binders L Γ} {α β : Type} {p : Grammar ε S Γ α}
    {q : Grammar ε S Γ β} {p' q'} : Links P B p p' → Links P B q q' →
    Links P B (.right p q) (.right p' q')
  | left {Γ : List Type} {B : Binders L Γ} {α β : Type} {p : Grammar ε S Γ α}
    {q : Grammar ε S Γ β} {p' q'} : Links P B p p' → Links P B q q' →
    Links P B (.left p q) (.left p' q')
  | or {Γ : List Type} {B : Binders L Γ} {α : Type} {p q : Grammar ε S Γ α} {p' q'} :
    Links P B p p' → Links P B q q' → Links P B (.or p q) (.or p' q')
  | attempt {Γ : List Type} {B : Binders L Γ} {α : Type} {p : Grammar ε S Γ α} {p'} :
    Links P B p p' → Links P B (.attempt p) (.attempt p')
  | choice {Γ : List Type} {B : Binders L Γ} {α : Type} {label} {n : Nat}
    {ps : Fin n → Grammar ε S Γ α} {ps'} : (∀ i, Links P B (ps i) (ps' i)) →
    Links P B (.choice label ps) (.choice label ps')
  | tryChoice {Γ : List Type} {B : Binders L Γ} {α : Type} {label} {n : Nat}
    {ps : Fin n → Grammar ε S Γ α} {ps'} : (∀ i, Links P B (ps i) (ps' i)) →
    Links P B (.tryChoice label ps) (.tryChoice label ps')
  | opt {Γ : List Type} {B : Binders L Γ} {α : Type} {p : Grammar ε S Γ α} {p'} :
    Links P B p p' → Links P B (.opt p) (.opt p')
  | lookAhead {Γ : List Type} {B : Binders L Γ} {α : Type} {p : Grammar ε S Γ α} {p'} :
    Links P B p p' → Links P B (.lookAhead p) (.lookAhead p')
  | named {Γ : List Type} {B : Binders L Γ} {α : Type} {label} {p : Grammar ε S Γ α} {p'} :
    Links P B p p' → Links P B (.named label p) (.named label p')
  | many {Γ : List Type} {B : Binders L Γ} {α : Type} {p : Grammar ε S Γ α} {p'} :
    Links P B p p' → Links P B (.many p) (.many p')
  | many1 {Γ : List Type} {B : Binders L Γ} {α : Type} {p : Grammar ε S Γ α} {p'} :
    Links P B p p' → Links P B (.many1 p) (.many1 p')
  | count {Γ : List Type} {B : Binders L Γ} {α : Type} {size n} {p : Grammar ε S Γ α} {p'} :
    Links P B p p' → Links P B (.count size n p) (.count size n p')
  | sepBy {Γ : List Type} {B : Binders L Γ} {α β : Type} {sep : Grammar ε S Γ β}
    {p : Grammar ε S Γ α} {sep' p'} : Links P B sep sep' → Links P B p p' →
    Links P B (.sepBy sep p) (.sepBy sep' p')
  | sepBy1 {Γ : List Type} {B : Binders L Γ} {α β : Type} {sep : Grammar ε S Γ β}
    {p : Grammar ε S Γ α} {sep' p'} : Links P B sep sep' → Links P B p p' →
    Links P B (.sepBy1 sep p) (.sepBy1 sep' p')
  | manyTill {Γ : List Type} {B : Binders L Γ} {α β : Type} {p : Grammar ε S Γ α}
    {stop : Grammar ε S Γ β} {p' stop'} : Links P B p p' → Links P B stop stop' →
    Links P B (.manyTill p stop) (.manyTill p' stop')
  | skipMany {Γ : List Type} {B : Binders L Γ} {α : Type} {p : Grammar ε S Γ α} {p'} :
    Links P B p p' → Links P B (.skipMany p) (.skipMany p')
  | skipMany1 {Γ : List Type} {B : Binders L Γ} {α : Type} {p : Grammar ε S Γ α} {p'} :
    Links P B p p' → Links P B (.skipMany1 p) (.skipMany1 p')
  | chainLeft {Γ : List Type} {B : Binders L Γ} {α : Type} {p : Grammar ε S Γ α}
    {op : Grammar ε S Γ (α → α → α)} {p' op'} : Links P B p p' → Links P B op op' →
    Links P B (.chainLeft p op) (.chainLeft p' op')
  | chainRight {Γ : List Type} {B : Binders L Γ} {α : Type} {p : Grammar ε S Γ α}
    {op : Grammar ε S Γ (α → α → α)} {p' op'} : Links P B p p' → Links P B op op' →
    Links P B (.chainRight p op) (.chainRight p' op')
  | fix {Γ : List Type} {B : Binders L Γ} {cell : Nat} {body : Grammar ε S (L cell :: Γ) (L cell)} :
    Links P (.cons cell B) body (P.held cell (P.built cell)) →
    Links P B (.fix cell body) (.prim (.own cell))
  | ref {Γ : List Type} {B : Binders L Γ} {α : Type} {v : Var Γ α} :
    Links P B (.ref v) (.prim (B.link v))
  | prim {Γ : List Type} {B : Binders L Γ} {α : Type} {p : S.Prim α} :
    Links P B (.prim p) (.prim (.prim p))
  | scope {Γ : List Type} {B : Binders L Γ} {α β : Type} {s : S.Scope α β}
    {p : Grammar ε S Γ α} {p'} : Links P B p p' → Links P B (.scope s p) (.scope s p')

end

/-! ## Names -/

namespace Grammar

variable {ε : Type} {S : Signature} {M : Type → Type} [Monad M]

/-- The name of a grammar, where one has to ask for the names of what the input offers. -/
def tell (ask : {α : Type} → S.Prim α → M String) :
    {Γ : List Type} → {α : Type} → Grammar ε S Γ α → M String
  | _, _, item label _ | _, _, choice label _ | _, _, tryChoice label _ | _, _, named label _ =>
    pure label
  | _, _, any => pure "any item"
  | _, _, ret _ => pure "ret"
  | _, _, fail _ => pure "fail"
  | _, _, eof => pure "end of input"
  | _, _, finish p | _, _, map _ p | _, _, tryMap _ p | _, _, check _ _ p | _, _, attempt p
  | _, _, scope _ p | _, _, fix _ p => tell ask p
  | _, _, bind p _ => return (← tell ask p) ++ ".bind(..)"
  | _, _, all brackets ps =>
    return Brackets.wrap brackets (← (List.ofFn fun i => tell ask (ps i)).mapM id)
  | _, _, right p q => do
    let second ← tell ask q
    return second ++ ".preceded(" ++ (← tell ask p) ++ ")"
  | _, _, left p q => return (← tell ask p) ++ ".terminated(" ++ (← tell ask q) ++ ")"
  | _, _, or p q => return (← tell ask p) ++ " or " ++ (← tell ask q)
  | _, _, opt p => return (← tell ask p) ++ ".opt()"
  | _, _, lookAhead p => return (← tell ask p) ++ ".look_ahead()"
  | _, _, many p => return (← tell ask p) ++ ".many0()"
  | _, _, many1 p => return (← tell ask p) ++ ".many1()"
  | _, _, count _ n p => return (← tell ask p) ++ s!".count({n})"
  | _, _, sepBy sep p | _, _, sepBy1 sep p =>
    return (← tell ask p) ++ ".sep_by(" ++ (← tell ask sep) ++ ")"
  | _, _, manyTill p stop => return (← tell ask p) ++ ".many_till(" ++ (← tell ask stop) ++ ")"
  | _, _, skipMany p | _, _, skipMany1 p => return (← tell ask p) ++ ".skip_many()"
  | _, _, chainLeft p op => return (← tell ask p) ++ ".chain_l1(" ++ (← tell ask op) ++ ")"
  | _, _, chainRight p op => return (← tell ask p) ++ ".chain_r1(" ++ (← tell ask op) ++ ")"
  | _, _, ref _ => pure referenceName
  | _, _, prim p => ask p

end Grammar

/-! ## Runs -/

/-- The world after a look at a cell. -/
def onward {W : Type} (get : Nat → W → Nat × W) (cell : Nat) (w : W) : W := (get cell w).2

/-- Links run as the parsers that are found in their cells do. -/
@[reducible] def Interprets.links {S : Signature} {L : Nat → Type} {τ : Type} [Interprets S τ]
    (enter : (cell : Nat) → Parser τ (L cell)) : Interprets (S.linked L) τ where
  prim
    | .own cell | .back cell => enter cell
    | .prim p => Interprets.prim p
  scope s := Interprets.scope (S := S) s

namespace Definitions

variable {σ ε α W : Type} {S : Signature} {L : Nat → Type} [Cursor σ ε] [Element ε]
  [Interprets S σ] (P : Definitions ε S L) (get : Nat → W → Nat × W)

/-- Look at a cell, and run the parser that is in it. Cells are entered inside of each other at most
`depth` times. -/
def enter (n : Nat) : (depth cell : Nat) → Parser (Amid (onward get) σ) (L cell)
  | 0, _ => fun _ => none
  | depth + 1, cell => fun c =>
    letI := Interprets.links (S := S) (enter n depth)
    (P.held cell (get cell c.world).1).parser n (Cursor.visit cell c)

/-- The parser of a grammar that ends in links, with fuel `n` for its loops. -/
def run (n depth : Nat) (l : Linked ε S L α) : Parser (Amid (onward get) σ) α :=
  letI := Interprets.links (S := S) (P.enter get n depth (σ := σ))
  l.parser n

def parse (n : Nat) (l : Linked ε S L α) (c : σ) : StateT W Option (Reply σ α) := fun w =>
  (P.run get n n l ⟨c, w⟩).map fun r => (⟨r.result, r.cursor.inner⟩, r.cursor.world)

/-- The name of what a link leads to. Only the definition itself looks at its cell to tell it. -/
def tellLink : (depth : Nat) → {α : Type} → Link S L α → StateT W Option String
  | 0, _, .own _ => failure
  | depth + 1, _, .own cell => do
    let k ← modifyGet (get cell)
    (P.held cell k).tell (tellLink depth)
  | _, _, .back _ => pure Grammar.referenceName
  | _, _, .prim p => pure (S.primName p)

/-- The name of a grammar that ends in links. -/
def tell (depth : Nat) (l : Linked ε S L α) : StateT W Option String :=
  Grammar.tell (P.tellLink get depth) l

/-- Whatever is looked at, and in whatever order, is found to be what the function of its cell
builds. -/
def Truthful (w : W) : Prop :=
  ∀ cells cell, (get cell (Amid.after (onward get) cells w)).1 = P.built cell

/-- A world in which only this run goes on, and in which everything it looks at is built for it. It
remembers the cells, latest first. -/
def alone (cell : Nat) (cells : List Nat) : Nat × List Nat := (P.built cell, cell :: cells)

end Definitions
end Descent
