import Descent.Grammar.Run
import Mathlib.Logic.Function.Basic

/-!
# Substitution

Things in the place of the references of a grammar: other references, or grammars. A reference is an
index, and means its innermost binder whatever other binders there are; what is put in below a
binder has its own references moved past it (`Kit.under`). Main theorem `Grammar.run_subst`: a
grammar with others put in runs as it does where its references are bound to the runs of those.
-/

namespace Descent

variable {σ ε α β : Type} {S : Signature} {Γ Δ : List Type}

/-- A kind of things that can take the place of references. -/
structure Kit (ε : Type) (S : Signature) where
  Thing : List Type → Type → Type 1
  /-- The innermost reference as a thing. -/
  here {Γ : List Type} {α : Type} : Thing (α :: Γ) α
  /-- The thing under one more binder. -/
  shift {Γ : List Type} {α β : Type} : Thing Γ α → Thing (β :: Γ) α
  grammar {Γ : List Type} {α : Type} : Thing Γ α → Grammar ε S Γ α

namespace Kit

/-- A thing for every reference. -/
abbrev Filling (K : Kit ε S) (Γ Δ : List Type) := ∀ {α : Type}, Var Γ α → K.Thing Δ α

/-- The same under one more binder, whose references stay as they are. -/
def under {K : Kit ε S} (s : K.Filling Γ Δ) : K.Filling (β :: Γ) (β :: Δ)
  | _, .here => K.here
  | _, .there v => K.shift (s v)

end Kit

namespace Grammar

/-- The grammar with things in the place of its references. -/
def fill (K : Kit ε S) : {Γ Δ : List Type} → {α : Type} → K.Filling Γ Δ → Grammar ε S Γ α →
    Grammar ε S Δ α
  | _, _, _, _, item label rule => .item label rule
  | _, _, _, _, any => .any
  | _, _, _, _, ret v => .ret v
  | _, _, _, _, fail message => .fail message
  | _, _, _, _, eof => .eof
  | _, _, _, s, finish p => .finish (fill K s p)
  | _, _, _, s, map f p => .map f (fill K s p)
  | _, _, _, s, tryMap f p => .tryMap f (fill K s p)
  | _, _, _, s, check ok message p => .check ok message (fill K s p)
  | _, _, _, s, bind p f => .bind (fill K s p) fun v => fill K s (f v)
  | _, _, _, s, all brackets ps => .all brackets fun i => fill K s (ps i)
  | _, _, _, s, right p q => .right (fill K s p) (fill K s q)
  | _, _, _, s, left p q => .left (fill K s p) (fill K s q)
  | _, _, _, s, or p q => .or (fill K s p) (fill K s q)
  | _, _, _, s, attempt p => .attempt (fill K s p)
  | _, _, _, s, choice label ps => .choice label fun i => fill K s (ps i)
  | _, _, _, s, tryChoice label ps => .tryChoice label fun i => fill K s (ps i)
  | _, _, _, s, opt p => .opt (fill K s p)
  | _, _, _, s, lookAhead p => .lookAhead (fill K s p)
  | _, _, _, s, named label p => .named label (fill K s p)
  | _, _, _, s, many p => .many (fill K s p)
  | _, _, _, s, many1 p => .many1 (fill K s p)
  | _, _, _, s, count size k p => .count size k (fill K s p)
  | _, _, _, s, sepBy sep p => .sepBy (fill K s sep) (fill K s p)
  | _, _, _, s, sepBy1 sep p => .sepBy1 (fill K s sep) (fill K s p)
  | _, _, _, s, manyTill p stop => .manyTill (fill K s p) (fill K s stop)
  | _, _, _, s, skipMany p => .skipMany (fill K s p)
  | _, _, _, s, skipMany1 p => .skipMany1 (fill K s p)
  | _, _, _, s, chainLeft p op => .chainLeft (fill K s p) (fill K s op)
  | _, _, _, s, chainRight p op => .chainRight (fill K s p) (fill K s op)
  | _, _, _, s, fix cell p => .fix cell (fill K (Kit.under s) p)
  | _, _, _, s, ref v => K.grammar (s v)
  | _, _, _, _, prim p => .prim p
  | _, _, _, s, scope judge p => .scope judge (fill K s p)

def references (ε : Type) (S : Signature) : Kit ε S where
  Thing := Var
  here := .here
  shift := .there
  grammar := ref

def grammars (ε : Type) (S : Signature) : Kit ε S where
  Thing := Grammar ε S
  here := ref .here
  shift := fill (references ε S) .there
  grammar := id

/-- A grammar for every reference. -/
abbrev Substitution (ε : Type) (S : Signature) (Γ Δ : List Type) := (grammars ε S).Filling Γ Δ

/-- The grammar with others in the place of its references. -/
def subst (g : Grammar ε S Γ α) (s : Substitution ε S Γ Δ) : Grammar ε S Δ α :=
  fill (grammars ε S) s g

variable [Cursor σ ε] [Element ε] [Interprets S σ]

/-- Environments that bind the same parsers are the same. -/
theorem run_congr {n : Nat} (g : Grammar ε S Γ α) {ρ ρ' : Env σ Γ}
    (h : ∀ {β : Type} (v : Var Γ β), ρ v = ρ' v) : run n g ρ = run n g ρ' := by
  have he : @ρ = @ρ' := by
    funext β v
    exact h v
  rw [he]

/-- Things run as their places say. -/
structure Lawful (K : Kit ε S) (σ : Type) [Cursor σ ε] [Interprets S σ] : Prop where
  here {n : Nat} {Γ : List Type} {α : Type} (self : Parser σ α) (ρ : Env σ Γ) :
    run n (K.grammar K.here) (Env.cons self ρ) = self
  shift {n : Nat} {Γ : List Type} {α β : Type} (t : K.Thing Γ α) (self : Parser σ β)
    (ρ : Env σ Γ) : run n (K.grammar (K.shift t)) (Env.cons self ρ) = run n (K.grammar t) ρ

/-- A filled grammar runs as it does where its references are bound to the runs of the things. -/
theorem run_fill {K : Kit ε S} (hK : Lawful K σ) {n : Nat} (g : Grammar ε S Γ α)
    (s : K.Filling Γ Δ) (ρ : Env σ Δ) :
    run n (fill K s g) ρ = run n g fun v => run n (K.grammar (s v)) ρ := by
  induction g generalizing Δ with
  | item | any | ret | fail | eof | prim | ref => rfl
  | finish p ih => exact congrArg Parser.finish (ih s ρ)
  | map f p ih => exact congrArg (Parser.map f) (ih s ρ)
  | tryMap f p ih => exact congrArg (Parser.tryMap f) (ih s ρ)
  | check ok message p ih => exact congrArg (Parser.check ok message) (ih s ρ)
  | bind p f ih ihf => exact congrArg₂ Parser.andThen (ih s ρ) (funext fun v => ihf v s ρ)
  | all _ ps ih => exact congrArg Parser.all (funext fun i => ih i s ρ)
  | right p q ihp ihq => exact congrArg₂ Parser.right (ihp s ρ) (ihq s ρ)
  | left p q ihp ihq => exact congrArg₂ Parser.left (ihp s ρ) (ihq s ρ)
  | or p q ihp ihq => exact congrArg₂ Parser.or (ihp s ρ) (ihq s ρ)
  | attempt p ih => exact congrArg Parser.attempt (ih s ρ)
  | choice label ps ih =>
    exact congrArg (fun ps => Parser.choice label (List.ofFn ps)) (funext fun i => ih i s ρ)
  | tryChoice label ps ih =>
    exact congrArg (fun ps => Parser.tryChoice label (List.ofFn ps)) (funext fun i => ih i s ρ)
  | opt p ih => exact congrArg Parser.opt (ih s ρ)
  | lookAhead p ih => exact congrArg Parser.lookAhead (ih s ρ)
  | named label p ih => exact congrArg (Parser.named label) (ih s ρ)
  | many p ih => exact congrArg (Parser.many n) (ih s ρ)
  | many1 p ih => exact congrArg (Parser.many1 n) (ih s ρ)
  | count size k p ih => exact congrArg (Parser.count size k) (ih s ρ)
  | sepBy sep p ihs ihp => exact congrArg₂ (Parser.sepBy n) (ihs s ρ) (ihp s ρ)
  | sepBy1 sep p ihs ihp => exact congrArg₂ (Parser.sepBy1 n) (ihs s ρ) (ihp s ρ)
  | manyTill p stop ihp ihs => exact congrArg₂ (Parser.manyTill n) (ihp s ρ) (ihs s ρ)
  | skipMany p ih => exact congrArg (fun p => Parser.skipMany p n) (ih s ρ)
  | skipMany1 p ih => exact congrArg (Parser.skipMany1 n) (ih s ρ)
  | chainLeft p op ihp iho => exact congrArg₂ (Parser.chainLeft n) (ihp s ρ) (iho s ρ)
  | chainRight p op ihp iho => exact congrArg₂ (Parser.chainRight n) (ihp s ρ) (iho s ρ)
  | fix cell p ih =>
    refine congrArg (fun body => Parser.fixpoint body n) ?_
    funext self c
    refine congrFun ((ih (Kit.under s) (Env.cons self ρ)).trans (run_congr p fun v => ?_)) _
    cases v with
    | here => exact hK.here self ρ
    | there v => exact hK.shift (s v) self ρ
  | scope judge p ih => exact congrArg (Parser.judge (Interprets.scope judge)) (ih s ρ)

theorem lawful_references : Lawful (references ε S) σ := ⟨fun _ _ => rfl, fun _ _ _ => rfl⟩

theorem lawful_grammars : Lawful (grammars ε S) σ where
  here _ _ := rfl
  shift t _ _ := run_fill lawful_references t _ _

theorem run_subst {n : Nat} (g : Grammar ε S Γ α) (s : Substitution ε S Γ Δ) (ρ : Env σ Δ) :
    run n (g.subst s) ρ = run n g fun v => run n (s v) ρ :=
  run_fill lawful_grammars g s ρ

end Grammar
end Descent
