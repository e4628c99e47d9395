import Calculator.Arithmetic.Broadcast
import Calculator.Arithmetic.Comparison
import Calculator.Arithmetic.Operator
import Calculator.Arithmetic.Real
import Calculator.Arithmetic.Whole
import Calculator.Decorator.Builtins
import Calculator.Decorator.Moment
import Calculator.Decorator.Table
import Calculator.Digest.Md5
import Calculator.Digest.Padding
import Calculator.Digest.Sha256
import Calculator.Evaluation.Assignment
import Calculator.Evaluation.Calling
import Calculator.Evaluation.Combination
import Calculator.Evaluation.Help
import Calculator.Evaluation.Literal
import Calculator.Evaluation.Memory
import Calculator.Evaluation.Outcome
import Calculator.Evaluation.Script
import Calculator.Evaluation.Walk
import Calculator.Extension.Host
import Calculator.Extension.Plain
import Calculator.Failure
import Calculator.Fault
import Calculator.File.Folder
import Calculator.File.Path
import Calculator.File.World
import Calculator.Function.Angles
import Calculator.Function.Arguments
import Calculator.Function.Builtins
import Calculator.Function.Collections
import Calculator.Function.Cryptography
import Calculator.Function.Mapping
import Calculator.Function.Math
import Calculator.Function.Strings
import Calculator.Function.System
import Calculator.Function.Table
import Calculator.Grammar.Chart
import Calculator.Grammar.Grammar
import Calculator.Grammar.Lexer
import Calculator.Grammar.Parser
import Calculator.Grammar.Terminal
import Calculator.Grammar.Tree
import Calculator.Main
import Calculator.Number.Exact
import Calculator.Number.Notation
import Calculator.Number.Range
import Calculator.Number.Reading
import Calculator.Number.Shortest
import Calculator.Pattern.Basic
import Calculator.Pattern.Reader
import Calculator.Pattern.Scanner
import Calculator.Pattern.Search
import Calculator.Program.Chance
import Calculator.Program.CommandLine
import Calculator.Program.Completion
import Calculator.Program.Config
import Calculator.Program.Console
import Calculator.Program.Session
import Calculator.Proofs.Arithmetic.Bits
import Calculator.Proofs.Arithmetic.Elementwise
import Calculator.Proofs.Arithmetic.Exactness
import Calculator.Proofs.Arithmetic.Meeting
import Calculator.Proofs.Arithmetic.Order
import Calculator.Proofs.Arithmetic.Range
import Calculator.Proofs.Decorator.Listing
import Calculator.Proofs.Decorator.Radix
import Calculator.Proofs.Demand.Arithmetic
import Calculator.Proofs.Demand.Combination
import Calculator.Proofs.Demand.Evaluation
import Calculator.Proofs.Demand.Function
import Calculator.Proofs.Demand.Guarantees
import Calculator.Proofs.Demand.Guard
import Calculator.Proofs.Demand.Value
import Calculator.Proofs.Evaluation.Arrival
import Calculator.Proofs.Evaluation.Assignment
import Calculator.Proofs.Evaluation.Decimal
import Calculator.Proofs.Evaluation.Deed
import Calculator.Proofs.Evaluation.Depth
import Calculator.Proofs.Evaluation.Expression
import Calculator.Proofs.Evaluation.Frame
import Calculator.Proofs.Evaluation.Help
import Calculator.Proofs.Evaluation.Isolation
import Calculator.Proofs.Evaluation.Parameters
import Calculator.Proofs.Evaluation.Quotation
import Calculator.Proofs.Evaluation.Readback
import Calculator.Proofs.Evaluation.Rendering
import Calculator.Proofs.Evaluation.Resolution
import Calculator.Proofs.Evaluation.Running
import Calculator.Proofs.Evaluation.Sequence
import Calculator.Proofs.Evaluation.Spacing
import Calculator.Proofs.Evaluation.Stepwise
import Calculator.Proofs.Evaluation.Tracking
import Calculator.Proofs.Evaluation.Untaken
import Calculator.Proofs.Extension.Plain
import Calculator.Proofs.Extension.Visit
import Calculator.Proofs.Function.Binding
import Calculator.Proofs.Function.Builtin
import Calculator.Proofs.Function.Collections
import Calculator.Proofs.Function.Merging
import Calculator.Proofs.Function.Rounding
import Calculator.Proofs.Grammar.Absorption
import Calculator.Proofs.Grammar.Acceptance
import Calculator.Proofs.Grammar.Agreement
import Calculator.Proofs.Grammar.Brackets
import Calculator.Proofs.Grammar.Breaking
import Calculator.Proofs.Grammar.Building
import Calculator.Proofs.Grammar.Cells
import Calculator.Proofs.Grammar.Completeness
import Calculator.Proofs.Grammar.Cutting
import Calculator.Proofs.Grammar.Derivation
import Calculator.Proofs.Grammar.Ending
import Calculator.Proofs.Grammar.Heads
import Calculator.Proofs.Grammar.Joining
import Calculator.Proofs.Grammar.Kinds
import Calculator.Proofs.Grammar.Lexing
import Calculator.Proofs.Grammar.Lines
import Calculator.Proofs.Grammar.Numerals
import Calculator.Proofs.Grammar.OpenNodes
import Calculator.Proofs.Grammar.Piece
import Calculator.Proofs.Grammar.Positions
import Calculator.Proofs.Grammar.Reader
import Calculator.Proofs.Grammar.Reading
import Calculator.Proofs.Grammar.Recognition
import Calculator.Proofs.Grammar.Rejection
import Calculator.Proofs.Grammar.Rereading
import Calculator.Proofs.Grammar.Search
import Calculator.Proofs.Grammar.SingleToken
import Calculator.Proofs.Grammar.Spacing
import Calculator.Proofs.Grammar.Spelling
import Calculator.Proofs.Grammar.Trees
import Calculator.Proofs.Grammar.Unambiguity
import Calculator.Proofs.Grammar.Whole
import Calculator.Proofs.Grammar.Window
import Calculator.Proofs.Grammar.Written
import Calculator.Proofs.Hazard.Arithmetic
import Calculator.Proofs.Hazard.Combination
import Calculator.Proofs.Hazard.Decorator
import Calculator.Proofs.Hazard.Evaluation
import Calculator.Proofs.Hazard.Function
import Calculator.Proofs.Hazard.Guarantees
import Calculator.Proofs.Hazard.Task
import Calculator.Proofs.Number.Digits
import Calculator.Proofs.Number.Equality
import Calculator.Proofs.Number.Nearest
import Calculator.Proofs.Number.Rational
import Calculator.Proofs.Number.Reading
import Calculator.Proofs.Number.Rounding
import Calculator.Proofs.Number.Zero
import Calculator.Proofs.Program.CommandLine
import Calculator.Proofs.Program.Session
import Calculator.Proofs.Relocation.Combination
import Calculator.Proofs.Relocation.Evaluation
import Calculator.Proofs.Relocation.Function
import Calculator.Proofs.Relocation.Operator
import Calculator.Proofs.Relocation.Shift
import Calculator.Proofs.Relocation.Spread
import Calculator.Proofs.Text.Encoding
import Calculator.Proofs.Value.Hash
import Calculator.Proofs.Value.Reading
import Calculator.Proofs.Value.Symmetry
import Calculator.Site
import Calculator.Text.Base64
import Calculator.Text.Blank
import Calculator.Text.Bytes
import Calculator.Text.Case
import Calculator.Text.CaseTable
import Calculator.Text.Digit
import Calculator.Text.Escape
import Calculator.Text.Newline
import Calculator.Text.Percent
import Calculator.Text.Printable
import Calculator.Text.Quoted
import Calculator.Text.Range
import Calculator.Text.Word
import Calculator.Value.Basic
import Calculator.Value.Bindings
import Calculator.Value.Conversion
import Calculator.Value.Entries
import Calculator.Value.Equality
import Calculator.Value.Expected
import Calculator.Value.Hash
import Calculator.Value.Indexing
import Calculator.Value.Rendering
