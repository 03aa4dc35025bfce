import Lox.CommandLine
import Lox.Evaluation
import Lox.Main
import Lox.Prompt
import Lox.Session
import Lox.Syntax.Program
import Lox.Token.Lexer
import Lox.Proofs.Grammar
import Lox.Proofs.Parsing.Taking
import Lox.Proofs.Parsing.Progress
import Lox.Proofs.Parsing.Soundness
import Lox.Proofs.Parsing.Completeness
import Lox.Proofs.Parsing.Branches
import Lox.Proofs.Parsing.Parts
import Lox.Proofs.Fuel
import Lox.Proofs.Course
import Lox.Proofs.Course.Agreement
import Lox.Proofs.Course.Lawful
import Lox.Proofs.Course.Values
import Lox.Proofs.Course.Reachable
import Lox.Proofs.Course.Moments
import Lox.Proofs.Scopes.Frame
import Lox.Proofs.Scopes.Isolation
import Lox.Proofs.Scopes.Anchors
import Lox.Proofs.Scopes.Constants
import Lox.Proofs.Scopes.Encapsulation
import Lox.Proofs.Scopes.Chains
import Lox.Proofs.Scopes.Growth
import Lox.Proofs.Lines.Renumbering
import Lox.Proofs.Lines.Courses
import Lox.Proofs.Lines.Tracing
import Lox.Proofs.Text.Pieces
import Lox.Proofs.Lines.Derivations
import Lox.Proofs.Lines.Joining
import Lox.Proofs.Lines.Splitting
import Lox.Proofs.Text.Plain
import Lox.Proofs.Token.Lexemes
import Lox.Proofs.Token.Printing
import Lox.Proofs.Values.Faults
import Lox.Proofs.Values.Regular
import Lox.Proofs.Values.WellFormed
import Lox.Proofs.Values.Guards
import Lox.Proofs.Values.Failures
import Lox.Proofs.Likeness.Values
import Lox.Proofs.Likeness.Stores
import Lox.Proofs.Likeness.Machines
import Lox.Proofs.Likeness.Courses
import Lox.Proofs.Likeness.Loops
import Lox.Proofs.Token.Longest
import Lox.Proofs.Token.Tiling
import Lox.Proofs.Token.Numerals
import Lox.Proofs.Parsing.Cursor
import Lox.Proofs.Parsing.Mirroring
import Lox.Proofs.Parsing.Bounds
import Lox.Proofs.Sources.Rejection
import Lox.Proofs.Course.Closure
import Lox.Proofs.Prompt.Reading
import Lox.Proofs.Prompt.Turns
import Lox.Proofs.Prompt.Sharing
import Lox.Proofs.Parsing.Limits
import Lox.Proofs.Parsing.Boundaries
import Lox.Proofs.Numbers.Residues
import Lox.Proofs.Numbers.Division
import Lox.Proofs.Numbers.Reading
import Lox.Proofs.Numbers.Signed
import Lox.Proofs.Values.Conversion
import Lox.Proofs.Numbers.Literals
import Lox.Proofs.Scopes.Writes
import Lox.Proofs.Lines.Returns
import Lox.Proofs.Numbers.Rounding
import Lox.Proofs.Numbers.Comparison
import Lox.Proofs.Parsing.Excess
import Lox.Proofs.Parsing.Alone
