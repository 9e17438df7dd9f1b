import Descent.Cursor.Basic

/-!
# Tokens

A token is a piece of a text with a tag that says what kind of piece it is.
-/

namespace Descent

structure Token (τ : Type) where
  tag : τ
  body : String
  /-- The line where the piece ends, counted from one. -/
  line : Nat
  /-- The offset of the piece. -/
  start : Nat
  /-- Its length in bytes. -/
  span : Nat
  deriving DecidableEq, Repr

def Token.shown (t : Token String) : String :=
  "Token \x7b tag: " ++ Text.quote t.tag ++ ", body: " ++ Text.quote t.body ++
    s!", line: {t.line}, start: {t.start}, span: {t.span} " ++ "\x7d"

instance : Element (Token String) := ⟨Token.shown⟩

end Descent
