import Descent.Text.Printable

/-!
# Quoted characters and texts

How messages show characters and texts: between quotes, with a backslash before the quote in use
and before a backslash, short escapes for the commonest control characters, and the code point in
braces for everything else that cannot be seen.
-/

namespace Descent.Text

/-- The digits of a number to the base sixteen, in lower case. -/
def hex (n : Nat) : String := String.ofList (Nat.toDigits 16 n)

def escape (quote : Char) (c : Char) : String :=
  if c = quote then "\\" ++ c.toString
  else if c = '\\' then "\\\\"
  else if c = '\t' then "\\t"
  else if c = '\r' then "\\r"
  else if c = '\n' then "\\n"
  else if c.toNat = 0 then "\\0"
  else if isPrintable c then c.toString
  else "\\u\x7b" ++ hex c.toNat ++ "\x7d"

def quoteChar (c : Char) : String := "'" ++ escape '\'' c ++ "'"

def quote (s : String) : String :=
  "\"" ++ String.join (s.toList.map (escape '"')) ++ "\""

end Descent.Text
