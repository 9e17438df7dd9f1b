/-!
# Engines

Patterns in written form are compiled and searched for by an engine, which the library is handed
and does not look into. All it learns from an engine is whether a pattern is accepted, and where in
a text a match of it was found.
-/

namespace Descent.Regex

/-- Where a match was found: how many characters precede it, and how many precede its end. -/
structure Span where
  start : Nat
  stop : Nat
  deriving DecidableEq, Repr

/-- A compiled pattern: the match that it has in a text, if there is any. -/
abbrev Finder := List Char → Option Span

/-- What compiles a pattern, if it is well formed and of acceptable size. -/
structure Engine where
  compile : String → Option Finder

/-- The pattern in a group behind a start anchor, by which matches are to begin where the search
does. -/
def tied (source : String) : String := "^(" ++ source ++ ")"

/-- The pattern tied to the start of what is searched (`regex`). -/
def Engine.anchored? (E : Engine) (source : String) : Option Finder := E.compile (tied source)

end Descent.Regex
