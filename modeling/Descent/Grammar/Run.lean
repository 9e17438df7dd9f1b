import Descent.Grammar.Basic
import Descent.Cursor.Traced

/-!
# Running grammars

`Grammar.run n g ρ` is the parser that `g` describes. The fuel `n` bounds the iterations of every
loop and how deep each recursive definition may enter itself; `ρ` gives the parsers of the bound
variables. A recursive definition is unfolded as the run enters it.
-/

namespace Descent

/-- A parser for every bound variable. -/
abbrev Env (σ : Type) (Γ : List Type) := ∀ {α : Type}, Var Γ α → Parser σ α

namespace Env

variable {σ α : Type} {Γ : List Type}

def nil : Env σ [] := fun v => nomatch v

def cons (p : Parser σ α) (ρ : Env σ Γ) : Env σ (α :: Γ)
  | _, .here => p
  | _, .there v => ρ v

end Env

/-- How the parts of a signature run on a kind of cursor. -/
class Interprets (S : Signature) (σ : Type) where
  prim : {α : Type} → S.Prim α → Parser σ α
  scope : {α β : Type} → S.Scope α β → (start : σ) → α → (stop : σ) → Except ParseError β

instance (σ : Type) : Interprets .plain σ where
  prim p := nomatch p
  scope s := nomatch s

/-- Tracing does not change what a signature does. -/
instance (S : Signature) (σ : Type) [Interprets S σ] : Interprets S (Traced σ) where
  prim p c :=
    match Interprets.prim p c.inner with
    | none => none
    | some ⟨r, i⟩ => some ⟨r, { c with inner := i }⟩
  scope s start v stop := Interprets.scope s start.inner v stop.inner

namespace Parser

variable {σ ε α β : Type}

/-- A parser defined in terms of itself (`Fix::parse`), entering itself (`FixRef::parse`) at most
`depth` times. -/
def fixpoint (body : Parser σ α → Parser σ α) : (depth : Nat) → Parser σ α
  | 0 => fun _ => none
  | depth + 1 => fun c => body (fixpoint body depth) c

/-- Judge a successful run by its value and its two ends. -/
def judge (f : (start : σ) → α → (stop : σ) → Except ParseError β) (p : Parser σ α) :
    Parser σ β := fun start =>
  match p start with
  | none => none
  | some ⟨.error e, stop⟩ => some ⟨.error e, stop⟩
  | some ⟨.ok v, stop⟩ => some ⟨f start v stop, stop⟩

end Parser

namespace Grammar

variable {σ ε : Type} {S : Signature} [Cursor σ ε] [Element ε] [Interprets S σ]

/-- The parser that a grammar describes, with fuel `n` for its loops and definitions. -/
def run (n : Nat) : {Γ : List Type} → {α : Type} → Grammar ε S Γ α → Env σ Γ → Parser σ α
  | _, _, item _ rule, _ => Parser.item rule
  | _, _, any, _ => Parser.any
  | _, _, ret v, _ => Parser.pure v
  | _, _, fail message, _ => Parser.fail message
  | _, _, eof, _ => Parser.eof
  | _, _, finish p, ρ => (run n p ρ).finish
  | _, _, map f p, ρ => (run n p ρ).map f
  | _, _, tryMap f p, ρ => (run n p ρ).tryMap f
  | _, _, check ok message p, ρ => (run n p ρ).check ok message
  | _, _, bind p f, ρ => (run n p ρ).andThen fun v => run n (f v) ρ
  | _, _, all _ ps, ρ => Parser.all fun i => run n (ps i) ρ
  | _, _, right p q, ρ => (run n p ρ).right (run n q ρ)
  | _, _, left p q, ρ => (run n p ρ).left (run n q ρ)
  | _, _, or p q, ρ => (run n p ρ).or (run n q ρ)
  | _, _, attempt p, ρ => (run n p ρ).attempt
  | _, _, choice label ps, ρ => Parser.choice label (List.ofFn fun i => run n (ps i) ρ)
  | _, _, tryChoice label ps, ρ => Parser.tryChoice label (List.ofFn fun i => run n (ps i) ρ)
  | _, _, opt p, ρ => (run n p ρ).opt
  | _, _, lookAhead p, ρ => (run n p ρ).lookAhead
  | _, _, named label p, ρ => (run n p ρ).named label
  | _, _, many p, ρ => (run n p ρ).many n
  | _, _, many1 p, ρ => (run n p ρ).many1 n
  | _, _, count size k p, ρ => (run n p ρ).count size k
  | _, _, sepBy sep p, ρ => Parser.sepBy n (run n sep ρ) (run n p ρ)
  | _, _, sepBy1 sep p, ρ => Parser.sepBy1 n (run n sep ρ) (run n p ρ)
  | _, _, manyTill p stop, ρ => (run n p ρ).manyTill n (run n stop ρ)
  | _, _, skipMany p, ρ => (run n p ρ).skipMany n
  | _, _, skipMany1 p, ρ => (run n p ρ).skipMany1 n
  | _, _, chainLeft p op, ρ => (run n p ρ).chainLeft n (run n op ρ)
  | _, _, chainRight p op, ρ => (run n p ρ).chainRight n (run n op ρ)
  | _, _, fix cell p, ρ =>
    Parser.fixpoint (fun self c => run n p (Env.cons self ρ) (Cursor.visit cell c)) n
  | _, _, ref v, ρ => ρ v
  | _, _, prim p, _ => Interprets.prim p
  | _, _, scope s p, ρ => (run n p ρ).judge (Interprets.scope s)

def parser (n : Nat) {α : Type} (g : Grammar ε S [] α) : Parser σ α := run n g Env.nil

end Grammar
end Descent
