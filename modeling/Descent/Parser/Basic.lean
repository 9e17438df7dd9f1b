import Descent.Cursor.Basic

/-!
# Parsers

A parser runs from a cursor and answers with a value or a failure, and with the cursor it stopped
at: also a failed run has moved the cursor, and choices look at how far it got. A parser that may
repeat or recurse is given fuel. `none` is a run without a result: it did not finish within its fuel,
waits for its input forever, or crashes for want of memory.

This module holds the parsers for single elements and for the end of the input, and the ways to
run one parser after another.
-/

namespace Descent

/-- What a finished run leaves behind. -/
structure Reply (σ α : Type) where
  result : Except ParseError α
  cursor : σ

/-- A parser of `α` that runs from cursors of type `σ`. -/
abbrev Parser (σ α : Type) := σ → Option (Reply σ α)

namespace Parser

variable {σ ε α β γ : Type}

def pure (v : α) : Parser σ α := fun c => some ⟨.ok v, c⟩

def throw (e : ParseError) : Parser σ α := fun c => some ⟨.error e, c⟩

/-- Run `p`; if it succeeds, go on with `f` from where it stopped (`bind`). -/
def andThen (p : Parser σ α) (f : α → Parser σ β) : Parser σ β := fun c =>
  match p c with
  | none => none
  | some ⟨.error e, c⟩ => some ⟨.error e, c⟩
  | some ⟨.ok v, c⟩ => f v c

def map (f : α → β) (p : Parser σ α) : Parser σ β := p.andThen fun v => pure (f v)

/-- Change the failure of a failed run. -/
def mapError (f : ParseError → ParseError) (p : Parser σ α) : Parser σ α := fun c =>
  match p c with
  | none => none
  | some ⟨.error e, c⟩ => some ⟨.error (f e), c⟩
  | some ⟨.ok v, c⟩ => some ⟨.ok v, c⟩

/-- Both parsers in order; the second value (`preceded`). -/
def right (p : Parser σ α) (q : Parser σ β) : Parser σ β := p.andThen fun _ => q

/-- Both parsers in order; the first value (`terminated`). -/
def left (p : Parser σ α) (q : Parser σ β) : Parser σ α := p.andThen fun v => q.map fun _ => v

def pair (p : Parser σ α) (q : Parser σ β) : Parser σ (α × β) :=
  p.andThen fun a => q.map fun b => (a, b)

/-- All parsers in order; all values (`list`). -/
def all : {n : Nat} → {τ : Fin n → Type} → (∀ i, Parser σ (τ i)) → Parser σ (∀ i, τ i)
  | 0, _, _ => pure fun i => i.elim0
  | _ + 1, τ, ps =>
    (ps 0).andThen fun v =>
      (all fun i => ps i.succ).map fun vs => Fin.cases (motive := τ) v vs

/-- Change the value with a function that may reject it (`try_map`); a rejection stands at the start
of the run. -/
def tryMap [Cursor σ ε] (f : α → Except String β) (p : Parser σ α) : Parser σ β := fun c =>
  p.andThen (fun v =>
    match f v with
    | .ok w => pure w
    | .error m => throw (.transform (Cursor.offset c) m)) c

/-- Accept the value only if `ok` holds (`assert`); the failure stands at the start of the run. -/
def check [Cursor σ ε] (ok : α → Bool) (message : α → String) (p : Parser σ α) : Parser σ α :=
  fun c =>
    p.andThen (fun v =>
      if ok v then pure v else throw (.failure (Cursor.offset c) (message v))) c

/-! ## Elements -/

def any [Cursor σ ε] : Parser σ ε := fun c =>
  match Cursor.read c with
  | none => none
  | some (none, c) => some ⟨.error (.endOfInput (Cursor.offset c)), c⟩
  | some (some x, c) => some ⟨.ok x, c⟩

/-- An element that the rule accepts (`match_item`). A rejected element is put back. -/
def item [Cursor σ ε] [Element ε] (rule : ε → Except String Unit) : Parser σ ε := fun c =>
  any.andThen (fun x now =>
    match rule x with
    | .ok () => some ⟨.ok x, now⟩
    | .error m =>
      match Cursor.unread now with
      | none => some ⟨.error (.nothingToUnread (Cursor.offset now)), now⟩
      | some back => some ⟨.error (.predicate (Cursor.offset c) (Element.shown x) m), back⟩) c

def fail [Cursor σ ε] (message : String) : Parser σ α := fun c =>
  some ⟨.error (.failure (Cursor.offset c) message), c⟩

/-- Succeed if nothing is left to read (`end`); the failure shows the next element. -/
def eof [Cursor σ ε] [Element ε] : Parser σ Unit := fun c =>
  match Cursor.exhausted c with
  | none => none
  | some (true, c) => some ⟨.ok (), c⟩
  | some (false, c) =>
    match Cursor.read c with
    | none => none
    | some (x, now) =>
      some ⟨.error (.unparsed (Cursor.offset c) ((x.map Element.shown).getD "")),
        Cursor.restore now c⟩

/-- Run `p`, and require that nothing is left. -/
def finish [Cursor σ ε] [Element ε] (p : Parser σ α) : Parser σ α := p.left eof

/-! ## Names -/

/-- Put a failure under a name. -/
def named (label : String) (p : Parser σ α) : Parser σ α := p.mapError (.named label)

end Parser
end Descent
