import Descent.Evaluate

/-!
# The command line

Reads a text from the standard input and answers with the value of the expression (`calc`) or with
the formatted document (`json`) in it.
-/

namespace Descent

/-- Everything up to the end of the input. -/
partial def readAll (input : IO.FS.Stream) (soFar : String) : IO String := do
  let line ← input.getLine
  if line.isEmpty then return soFar else readAll input (soFar ++ line)

end Descent

def main (args : List String) : IO UInt32 := do
  let tool? : Option Descent.Tool := match args with
    | ["calc"] => some .calculate
    | ["json"] => some .reformat
    | _ => none
  match tool? with
  | some tool =>
    IO.println (tool.respond (← Descent.readAll (← IO.getStdin) ""))
    return 0
  | none =>
    IO.eprintln "usage: descent (calc | json)"
    return 2
