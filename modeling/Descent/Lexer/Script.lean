import Descent.Dynamic.Classes
import Descent.Lexer.Stream

/-!
# Scripted lexers

A script lists the actions of every state. After each action that does not end its state, the
observers are told what the action gave and where the machine stands. A state that does not say
where to go is followed by the next one in the list, and the last one by the end.
-/

namespace Descent.Lexer

inductive Action
  | read
  | peek
  | backup
  | emit (tag : String)
  | dropSpan
  | readWhile (c : CharClass)
  | readUntilFail (c : CharClass)
  | input
  | goto (state : Nat)
  /-- Go to a state unless the text is at its end. -/
  | gotoUnlessEof (state : Nat)
  | stop
  | fail (message : String)
  | panic
  /-- Wait until the consumer is gone. -/
  | awaitDrop

/-- What an action gave, and the machine after it. -/
structure Observation where
  result : Option String
  pos : Nat
  start : Nat
  line : Nat
  body : String

/-- What the observers of a script are told. -/
inductive Note
  /-- A state begins. -/
  | state
  | action (o : Observation)
  /-- The consumer is to go away now. -/
  | waiting

namespace Action

/-- The end of an action that gave `result`. -/
def observe (result : Option String) (k : Routine Nat String Note) : Routine Nat String Note :=
  .view fun m => .note (.action ⟨result, m.pos, m.start, m.line, m.body⟩) k

/-- The action, and then `k`. -/
def routine (k : Routine Nat String Note) : Action → Routine Nat String Note
  | read => .read fun c => observe (c.map Char.toString) k
  | peek => .peek fun c => observe (c.map Char.toString) k
  | backup => .backup (observe none k)
  | emit tag => .emit tag (observe none k)
  | dropSpan => .dropSpan (observe none k)
  | readWhile c => .readWhile c.has (observe none k)
  | readUntilFail c => .readUntilFail c.has (observe none k)
  | input => .view fun m => observe (some m.input) k
  | goto i => .goto i
  | gotoUnlessEof i => .peek fun c => if c.isSome then .goto i else observe none k
  | stop => .stop
  | fail message => .fail (.message message)
  | panic => .panic
  | awaitDrop => .note .waiting (observe none k)

end Action

/-- The states of a script; one empty state if it lists none. -/
def scripted (states : List (List Action)) (i : Nat) : Routine Nat String Note :=
  let states := if states.isEmpty then [[]] else states
  let last : Routine Nat String Note := if i + 1 < states.length then .goto (i + 1) else .stop
  .note .state ((states.getD i []).foldr (fun a k => a.routine k) last)

def ofScript (states : List (List Action)) (patience : Nat) (text : List Char) :
    Lexer Nat String Note :=
  .ofText (scripted states) 0 patience text

def observations (l : Lexer Nat String Note) : List Observation :=
  l.pipe.journal.reverse.filterMap fun
    | .note (.action o) => some o
    | _ => none

def statesRun (l : Lexer Nat String Note) : Nat :=
  l.pipe.journal.countP fun
    | .note .state => true
    | _ => false

/-- Whether the latest that the observers were told is that the consumer is to go. -/
def isWaiting (p : Pipeline Nat String Note) : Bool :=
  match p.journal with
  | .note .waiting :: _ => true
  | _ => false

/-- The end of a lexer whose consumer goes away when it is told to. -/
def abandon (fuel : Nat) (l : Lexer Nat String Note) : Lexer Nat String Note :=
  (l.produceUntil isWaiting fuel).drop.produceUntil (fun _ => false) fuel

end Descent.Lexer
