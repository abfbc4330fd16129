import TemplateExpr.Binary.Arithmetic
import TemplateExpr.Binary.Format
import TemplateExpr.Binary.Narrowing
import TemplateExpr.Binary.Rounding
import TemplateExpr.Bindings
import TemplateExpr.Builtin
import TemplateExpr.Calendar.Date
import TemplateExpr.Calendar.Moment
import TemplateExpr.Calendar.Pattern
import TemplateExpr.Coercions
import TemplateExpr.Coercions.Policy
import TemplateExpr.CommandLine
import TemplateExpr.Datum
import TemplateExpr.Decimal.Basic
import TemplateExpr.Decimal.Digits
import TemplateExpr.Decimal.Numeral
import TemplateExpr.Decimal.Shortest
import TemplateExpr.Evaluation
import TemplateExpr.Event
import TemplateExpr.Expr
import TemplateExpr.Expr.Parser
import TemplateExpr.Expr.Printer
import TemplateExpr.Heap
import TemplateExpr.Kind
import TemplateExpr.Main
import TemplateExpr.Operation
import TemplateExpr.Operation.Apply
import TemplateExpr.Operation.Arithmetic
import TemplateExpr.Operation.Promotion
import TemplateExpr.Operation.Strings
import TemplateExpr.Operator
import TemplateExpr.Proofs.Binary.Narrowing
import TemplateExpr.Proofs.Binary.Value
import TemplateExpr.Proofs.Builtin.Date
import TemplateExpr.Proofs.Calendar.Date
import TemplateExpr.Proofs.Calendar.Moment
import TemplateExpr.Proofs.Calendar.TimeSpan
import TemplateExpr.Proofs.Decimal.Nearest
import TemplateExpr.Proofs.Decimal.Numeral
import TemplateExpr.Proofs.Decimal.Shortest
import TemplateExpr.Proofs.Evaluation.Acyclic
import TemplateExpr.Proofs.Evaluation.Blame
import TemplateExpr.Proofs.Evaluation.Building
import TemplateExpr.Proofs.Evaluation.CallOrder
import TemplateExpr.Proofs.Evaluation.Frame
import TemplateExpr.Proofs.Evaluation.Joining
import TemplateExpr.Proofs.Evaluation.Layout
import TemplateExpr.Proofs.Evaluation.Postorder
import TemplateExpr.Proofs.Evaluation.Regrouping
import TemplateExpr.Proofs.Evaluation.Simulation
import TemplateExpr.Proofs.Evaluation.Substitution
import TemplateExpr.Proofs.Evaluation.Tracing
import TemplateExpr.Proofs.Evaluation.Wrapping
import TemplateExpr.Proofs.Grammar
import TemplateExpr.Proofs.Heap.Alike
import TemplateExpr.Proofs.Heap.Nesting
import TemplateExpr.Proofs.Heap.Order
import TemplateExpr.Proofs.Operation.Alike
import TemplateExpr.Proofs.Operation.Comparison
import TemplateExpr.Proofs.Operation.Dates
import TemplateExpr.Proofs.Operation.Division
import TemplateExpr.Proofs.Operation.Errors
import TemplateExpr.Proofs.Operation.Hosts
import TemplateExpr.Proofs.Operation.Integers
import TemplateExpr.Proofs.Operation.Ladder
import TemplateExpr.Proofs.Operation.Likeness
import TemplateExpr.Proofs.Operation.Outcome
import TemplateExpr.Proofs.Operation.Repetition
import TemplateExpr.Proofs.Operation.Reports
import TemplateExpr.Proofs.Operation.TextOrder
import TemplateExpr.Proofs.Parser.Completeness
import TemplateExpr.Proofs.Parser.Extent
import TemplateExpr.Proofs.Parser.Placeless
import TemplateExpr.Proofs.Parser.Places
import TemplateExpr.Proofs.Parser.Soundness
import TemplateExpr.Proofs.Parser.ViablePrefix
import TemplateExpr.Proofs.Printer.Literals
import TemplateExpr.Proofs.Printer.RoundTrip
import TemplateExpr.Proofs.Printer.Spelling
import TemplateExpr.Proofs.Range
import TemplateExpr.Proofs.Scanner.Faults
import TemplateExpr.Proofs.Scanner.Layout
import TemplateExpr.Proofs.Scanner.Lines
import TemplateExpr.Proofs.Scanner.Longest
import TemplateExpr.Proofs.Scanner.Numbers
import TemplateExpr.Proofs.Scanner.Patterns
import TemplateExpr.Proofs.Scanner.Pieces
import TemplateExpr.Proofs.Scanner.Readings
import TemplateExpr.Proofs.Scanner.Tiling
import TemplateExpr.Proofs.Source.Integers
import TemplateExpr.Proofs.Text.Units
import TemplateExpr.Proofs.Value.Conversion
import TemplateExpr.Proofs.Value.Description
import TemplateExpr.Proofs.Value.Equality
import TemplateExpr.Proofs.Value.Rendering
import TemplateExpr.Range
import TemplateExpr.RuntimeError
import TemplateExpr.Session
import TemplateExpr.Session.Sample
import TemplateExpr.Source
import TemplateExpr.Span
import TemplateExpr.SyntaxError
import TemplateExpr.Text.Blank
import TemplateExpr.Text.Quoted
import TemplateExpr.Text.Units
import TemplateExpr.Text.Unmarked
import TemplateExpr.Token
import TemplateExpr.Token.Scanner
import TemplateExpr.Value
import TemplateExpr.Value.Conversion
import TemplateExpr.Value.Equality
import TemplateExpr.Value.Text
