/-!
# Padding and styles

Texts are indented by spaces, up to a width that has 16 bits; asking for more is a crash.

A style is a sequence of display codes. A styled text starts with its codes and ends with a reset;
a reset inside the text is followed by the codes again, so that it ends no more than its own part.
-/

namespace Descent.Text

def blanks (n : Nat) : String := String.ofList (List.replicate n ' ')

/-- The widest padding there is. -/
def widestPadding : Nat := 65535

/-- So many spaces, if there can be so many. -/
def padding? (width : Nat) : Option String :=
  if width ≤ widestPadding then some (blanks width) else none

/-! ## Styles -/

/-- How a part of a report is set off on a terminal. -/
inductive Style
  /-- Bold. -/
  | strong
  /-- Bold red. -/
  | alarm
  /-- Bold blue. -/
  | frame

def Style.codes : Style → String
  | strong => "1"
  | alarm => "1;31"
  | frame => "1;34"

def Style.start (s : Style) : String := "\x1b[" ++ s.codes ++ "m"

def resetCode : String := "\x1b[0m"

def Style.apply (s : Style) (text : String) : String :=
  s.start ++ text.replace resetCode (resetCode ++ s.start) ++ resetCode

/-- The text in the style if `coloured`, and as it is otherwise. -/
def styled (coloured : Bool) (s : Style) (text : String) : String :=
  if coloured then s.apply text else text

end Descent.Text
