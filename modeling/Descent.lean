import Descent.Calculator
import Descent.Cursor.Basic
import Descent.Cursor.Buffered
import Descent.Cursor.Text
import Descent.Cursor.Traced
import Descent.Dynamic.Classes
import Descent.Dynamic.Grammar
import Descent.Dynamic.Value
import Descent.Error
import Descent.Evaluate
import Descent.Grammar.Basic
import Descent.Grammar.Combinators
import Descent.Grammar.Run
import Descent.Grammar.Text
import Descent.Json.Basic
import Descent.Json.Grammar
import Descent.Lexer.Machine
import Descent.Lexer.Pipeline
import Descent.Lexer.Routine
import Descent.Lexer.Rules
import Descent.Lexer.Script
import Descent.Lexer.Stream
import Descent.Lexer.Token
import Descent.Main
import Descent.Numeral.Bounded
import Descent.Numeral.Double
import Descent.Numeral.Shortest
import Descent.Parser.Basic
import Descent.Parser.Chain
import Descent.Parser.Choice
import Descent.Parser.Repeat
import Descent.Parser.Text
import Descent.Position
import Descent.Proofs.Abandoned
import Descent.Proofs.Alike
import Descent.Proofs.Anchoring
import Descent.Proofs.Attempts
import Descent.Proofs.Automata
import Descent.Proofs.Blame
import Descent.Proofs.ByteCursor
import Descent.Proofs.ByteMachine
import Descent.Proofs.Calls
import Descent.Proofs.Carets
import Descent.Proofs.Cells
import Descent.Proofs.Chains
import Descent.Proofs.Charwise
import Descent.Proofs.Commitment
import Descent.Proofs.Conservation
import Descent.Proofs.Contents
import Descent.Proofs.Correspondence
import Descent.Proofs.Course
import Descent.Proofs.Delimited
import Descent.Proofs.Eager
import Descent.Proofs.Emission
import Descent.Proofs.ErrorTrees
import Descent.Proofs.Excerpts
import Descent.Proofs.Expressions
import Descent.Proofs.FiniteSource
import Descent.Proofs.Greedy
import Descent.Proofs.Guarded
import Descent.Proofs.HandOff
import Descent.Proofs.Idle
import Descent.Proofs.JsonTexts
import Descent.Proofs.Languages
import Descent.Proofs.Limits
import Descent.Proofs.Linking
import Descent.Proofs.Locality
import Descent.Proofs.Lockstep
import Descent.Proofs.Longest
import Descent.Proofs.Loops
import Descent.Proofs.Positions
import Descent.Proofs.Preference
import Descent.Proofs.Readings
import Descent.Proofs.Repetition
import Descent.Proofs.Requests
import Descent.Proofs.RoundTrip
import Descent.Proofs.Runs
import Descent.Proofs.Scans
import Descent.Proofs.Schedules
import Descent.Proofs.Sharing
import Descent.Proofs.Substitution
import Descent.Proofs.Supply
import Descent.Proofs.Surroundings
import Descent.Proofs.Termination
import Descent.Proofs.TextAsSource
import Descent.Proofs.TextPlaces
import Descent.Proofs.Tiling
import Descent.Proofs.TokenStream
import Descent.Proofs.Tokens
import Descent.Proofs.Undone
import Descent.Proofs.Unfolding
import Descent.Regex.Automaton
import Descent.Regex.Basic
import Descent.Regex.CharSet
import Descent.Regex.Engine
import Descent.Regex.Match
import Descent.Regex.Read
import Descent.Regex.Size
import Descent.Regex.Ways
import Descent.Report
import Descent.Session
import Descent.Text.Blank
import Descent.Text.CaseFold
import Descent.Text.Printable
import Descent.Text.Quoted
import Descent.Text.Ranges
import Descent.Text.Style
import Descent.Text.Utf8
import Descent.Text.Word
