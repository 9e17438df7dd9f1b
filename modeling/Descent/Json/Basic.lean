import Descent.Text.Style

/-!
# JSON values

Values over a type of numbers, and their written form: two spaces of indentation for each level,
an element to a line. Strings are kept as they are written, escapes and all. Values that are nested
too deeply to be indented have no written form.
-/

namespace Descent

inductive Json (ν : Type)
  | null
  | bool (b : Bool)
  | number (x : ν)
  | string (s : String)
  | array (elems : List (Json ν))
  | object (entries : List (String × Json ν))
  deriving Repr

namespace Json

variable {ν : Type}

/-- The indentation of a level. -/
def indentation? (level : Nat) : Option String := Text.padding? (2 * level)

def quoted (s : String) : String := "\"" ++ s ++ "\""

mutual
/-- The written form of a value at a level (`Json::write`). -/
def render? (showNumber : ν → String) (level : Nat) : Json ν → Option String
  | null => some "null"
  | bool true => some "true"
  | bool false => some "false"
  | number x => some (showNumber x)
  | string s => some (quoted s)
  | array [] => some "[]"
  | array (v :: vs) => do
    let elems ← renderElems? showNumber (level + 1) (v :: vs)
    return "[\n" ++ elems ++ (← indentation? level) ++ "]"
  | object [] => some "\x7b\x7d"
  | object (e :: es) => do
    let entries ← renderEntries? showNumber (level + 1) (e :: es)
    return "\x7b\n" ++ entries ++ (← indentation? level) ++ "\x7d"

/-- The lines of the elements of an array. -/
def renderElems? (showNumber : ν → String) (level : Nat) : List (Json ν) → Option String
  | [] => some ""
  | v :: vs => do
    let shown ← render? showNumber level v
    let rest ← renderElems? showNumber level vs
    return (← indentation? level) ++ shown ++ (if vs.isEmpty then "" else ",") ++ "\n" ++ rest

/-- The lines of the entries of an object. -/
def renderEntries? (showNumber : ν → String) (level : Nat) :
    List (String × Json ν) → Option String
  | [] => some ""
  | (key, v) :: es => do
    let shown ← render? showNumber level v
    let rest ← renderEntries? showNumber level es
    return (← indentation? level) ++ quoted key ++ ": " ++ shown ++
      (if es.isEmpty then "" else ",") ++ "\n" ++ rest
end

end Json
end Descent
