import StepScript.Command
import StepScript.Command.Function
import StepScript.Command.Standard
import StepScript.Command.Stub
import StepScript.Command.Template
import StepScript.Command.Wait
import StepScript.Config
import StepScript.Diagnostic
import StepScript.Expr
import StepScript.Expr.Parser
import StepScript.Fault
import StepScript.Main
import StepScript.Number.Binary
import StepScript.Number.Numeral
import StepScript.Number.Shortest
import StepScript.Number.Text
import StepScript.Number.Word
import StepScript.Program
import StepScript.Program.Action
import StepScript.Program.Activity
import StepScript.Program.Evaluation
import StepScript.Program.Signal
import StepScript.Script
import StepScript.Script.Cache
import StepScript.Script.Parser
import StepScript.Source.Location
import StepScript.Text.Blank
import StepScript.Text.Case
import StepScript.Text.Case.Cased
import StepScript.Text.Case.Lower
import StepScript.Text.Case.Mapping
import StepScript.Text.Case.Upper
import StepScript.Text.CodeSet
import StepScript.Text.Extender
import StepScript.Text.Letter
import StepScript.Text.Lines
import StepScript.Text.Printable
import StepScript.Text.Quoted
import StepScript.Text.Style
import StepScript.Token
import StepScript.Token.Lexer
import StepScript.Toml
import StepScript.Toml.Parser
import StepScript.Toml.Scalar
import StepScript.Toml.Text
import StepScript.Tool
import StepScript.Tool.Files
import StepScript.Tool.Invocation
import StepScript.Value
import StepScript.Value.Operator
import StepScript.Variables
import StepScript.Proofs.Generator
import StepScript.Proofs.Resumption
import StepScript.Proofs.Pace
import StepScript.Proofs.Cycle
import StepScript.Proofs.Nesting
import StepScript.Proofs.BlockTree
import StepScript.Proofs.Structured
import StepScript.Proofs.Refinement
import StepScript.Proofs.Grammar
import StepScript.Proofs.Parsing
import StepScript.Proofs.ScriptParsing
import StepScript.Proofs.Segments
import StepScript.Proofs.Printed
import StepScript.Proofs.Numerals
import StepScript.Proofs.Rendering
import StepScript.Proofs.RoundTrip
import StepScript.Proofs.Rules
import StepScript.Proofs.Likeness
import StepScript.Proofs.CacheCalls
import StepScript.Proofs.Requests
import StepScript.Proofs.Sharing
import StepScript.Proofs.Recording
import StepScript.Proofs.Turns
import StepScript.Proofs.Conduct
import StepScript.Proofs.Protocol
import StepScript.Proofs.KindsOnly
import StepScript.Proofs.Munch
import StepScript.Proofs.Layout
import StepScript.Proofs.Atomicity
import StepScript.Proofs.Conformance
import StepScript.Proofs.Matching
import StepScript.Proofs.Builtins
import StepScript.Proofs.Defects
import StepScript.Proofs.RequestNesting
import StepScript.Proofs.Arithmetic
import StepScript.Proofs.Blame
import StepScript.Proofs.Lookahead
import StepScript.Proofs.Selection
import StepScript.Proofs.Literals
import StepScript.Proofs.Templates
import StepScript.Proofs.Suspended
import StepScript.Proofs.Brackets
import StepScript.Proofs.Chronicle
import StepScript.Proofs.Polling
import StepScript.Proofs.FloatOrder
import StepScript.Proofs.Extremes
import StepScript.Proofs.Slots
import StepScript.Proofs.Carets
import StepScript.Proofs.Shortest
import StepScript.Proofs.FloatText
import StepScript.Proofs.Readability
import StepScript.Proofs.Extents
