import TypedSexp.Command.Arguments
import TypedSexp.Command.Invocation
import TypedSexp.Command.Outcome
import TypedSexp.Compile
import TypedSexp.Constraint.Basic
import TypedSexp.Constraint.Descent
import TypedSexp.Constraint.Solve
import TypedSexp.Constraint.Step
import TypedSexp.Diagnostic
import TypedSexp.Digest
import TypedSexp.Distinct
import TypedSexp.Entries
import TypedSexp.FileTree.Basic
import TypedSexp.FileTree.System
import TypedSexp.Files
import TypedSexp.Form.Basic
import TypedSexp.Form.Call
import TypedSexp.Form.Printer
import TypedSexp.Form.Reader
import TypedSexp.Form.Record
import TypedSexp.Hook.Audience
import TypedSexp.Hook.Event
import TypedSexp.Hook.Registry
import TypedSexp.Inference
import TypedSexp.Json.Basic
import TypedSexp.Json.Reader
import TypedSexp.Json.Writer
import TypedSexp.Log
import TypedSexp.Main
import TypedSexp.Number.Basic
import TypedSexp.Number.Binary64
import TypedSexp.Number.Complex
import TypedSexp.Number.Decimal
import TypedSexp.Path
import TypedSexp.Proofs.Command.Output
import TypedSexp.Proofs.Compile.Composition
import TypedSexp.Proofs.Compile.Emission
import TypedSexp.Proofs.Compile.Placement
import TypedSexp.Proofs.Compile.Progress
import TypedSexp.Proofs.Compile.Written
import TypedSexp.Proofs.Constraint.Origin
import TypedSexp.Proofs.Constraint.Relabelling
import TypedSexp.Proofs.Constraint.Resolution
import TypedSexp.Proofs.Constraint.Rules
import TypedSexp.Proofs.Constraint.Termination
import TypedSexp.Proofs.Constraint.Triangular
import TypedSexp.Proofs.Constraint.Unifier
import TypedSexp.Proofs.Entries
import TypedSexp.Proofs.Form.Altered
import TypedSexp.Proofs.Form.Flattening
import TypedSexp.Proofs.Form.Integrity
import TypedSexp.Proofs.Form.Joined
import TypedSexp.Proofs.Form.Nesting
import TypedSexp.Proofs.Form.Notes
import TypedSexp.Proofs.Form.Placed
import TypedSexp.Proofs.Form.Printed
import TypedSexp.Proofs.Form.Restored
import TypedSexp.Proofs.Form.Slice
import TypedSexp.Proofs.Form.Viable
import TypedSexp.Proofs.Hook.Course
import TypedSexp.Proofs.Hook.Subscription
import TypedSexp.Proofs.Inference.Annotation
import TypedSexp.Proofs.Inference.Assignment
import TypedSexp.Proofs.Inference.Completeness
import TypedSexp.Proofs.Inference.Independence
import TypedSexp.Proofs.Inference.Relabelling
import TypedSexp.Proofs.Inference.Soundness
import TypedSexp.Proofs.Inference.Supply
import TypedSexp.Proofs.Inference.Typing
import TypedSexp.Proofs.Json.Canonical
import TypedSexp.Proofs.Json.Content
import TypedSexp.Proofs.Json.Numbers
import TypedSexp.Proofs.Json.RoundTrip
import TypedSexp.Proofs.Json.Strings
import TypedSexp.Proofs.Location
import TypedSexp.Proofs.Number.Digits
import TypedSexp.Proofs.Number.Rendered
import TypedSexp.Proofs.Number.Rounding
import TypedSexp.Proofs.Result
import TypedSexp.Proofs.Script.Determined
import TypedSexp.Proofs.Session.InPlace
import TypedSexp.Proofs.Session.Independence
import TypedSexp.Proofs.Session.Scoping
import TypedSexp.Proofs.Setting.Chained
import TypedSexp.Proofs.Setting.Collected
import TypedSexp.Proofs.Setting.Layered
import TypedSexp.Proofs.Token.Fault
import TypedSexp.Proofs.Token.Joined
import TypedSexp.Proofs.Token.Layout
import TypedSexp.Proofs.Token.Placed
import TypedSexp.Proofs.Token.Spelling
import TypedSexp.Proofs.Ty.Bind
import TypedSexp.Proofs.Ty.Calculus
import TypedSexp.Proofs.Ty.Readable
import TypedSexp.Proofs.Ty.Renaming
import TypedSexp.Report
import TypedSexp.Sample
import TypedSexp.Scope
import TypedSexp.Script
import TypedSexp.Session
import TypedSexp.Setting.Configuration
import TypedSexp.Setting.Document
import TypedSexp.Setting.Literal.Expression
import TypedSexp.Setting.Literal.Formatted
import TypedSexp.Setting.Literal.Number
import TypedSexp.Setting.Literal.Piece
import TypedSexp.Setting.Literal.Quoted
import TypedSexp.Setting.Literal.Reader
import TypedSexp.Setting.Load
import TypedSexp.Setting.Mapping
import TypedSexp.Setting.Moment
import TypedSexp.Setting.Options
import TypedSexp.Setting.Override
import TypedSexp.Setting.Value
import TypedSexp.Setting.Yaml.Document
import TypedSexp.Setting.Yaml.Layout
import TypedSexp.Setting.Yaml.Node
import TypedSexp.Setting.Yaml.Placed
import TypedSexp.Setting.Yaml.Plain
import TypedSexp.Setting.Yaml.Scalar
import TypedSexp.Span
import TypedSexp.Text.Blank
import TypedSexp.Text.Digit
import TypedSexp.Text.Hex
import TypedSexp.Text.Name
import TypedSexp.Text.Newline
import TypedSexp.Text.Printable
import TypedSexp.Text.Quoted
import TypedSexp.Text.Split
import TypedSexp.Text.Uppercase
import TypedSexp.Text.Utf8
import TypedSexp.Token.Basic
import TypedSexp.Token.Given
import TypedSexp.Token.Lexer
import TypedSexp.Ty.Basic
import TypedSexp.Ty.Render
import TypedSexp.Ty.Substitution
