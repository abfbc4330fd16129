-- What can go wrong while an expression is evaluated: a cause, the place of the node
-- that failed, and the message that tells both.
import TemplateExpr.Kind
import TemplateExpr.Operator
import TemplateExpr.Span

namespace TemplateExpr

inductive RuntimeError.Cause where
  /-- The operator does nothing with operands of these kinds. -/
  | unsupportedOperator (op : BinaryOp) (expression : String) (left : String) (leftKind : Kind)
      (right : String) (rightKind : Kind)
  /-- Operands of kinds that no operator joins. -/
  | unsupportedTypes (op : BinaryOp) (expression : String) (left : String) (leftKind : Kind)
      (right : String) (rightKind : Kind)
  | conversionFailure (value : String) (source target : Kind) (expression : Option String)
  /-- A text multiplied by something that is no integer. -/
  | notRepeatable (op : BinaryOp) (expression : String)
  | divisionByZero (expression : String)
  | overflow (expression : String)
  | unsupportedUnary (op : UnaryOp) (kind : Kind)
  | unknownVariable (name : String)
  | unknownFunction (name : String)
  | argumentCount (name : String) (expected : String) (found : Nat)
  | invalidArgument (details : String)
deriving DecidableEq

structure RuntimeError where
  cause : RuntimeError.Cause
  span : Span
deriving DecidableEq

namespace RuntimeError

/-- What went wrong, without the place. -/
def Cause.text : Cause → String
  | unsupportedOperator op e l lk r rk =>
    s!"Operator `{op.symbol}` is not supported for `{l}: {lk.name}` and `{r}: {rk.name}` in `{e}`"
  | unsupportedTypes op e l lk r rk =>
    s!"Unsupported types `{l}/{lk.name}` {op.symbol} `{r}/{rk.name}` in `{e}`"
  | conversionFailure v s t e =>
    s!"Unable to convert `{v}` of type {s.name} to {t.name}" ++
      (e.map fun e => s!" in `{e}`").getD ""
  | notRepeatable op e =>
    s!"Operator `{op.symbol}` is only supported for string * int or int * string, in `{e}`"
  | divisionByZero e => s!"Division by zero in `{e}`"
  | overflow e => s!"Arithmetic overflow in `{e}`"
  | unsupportedUnary op k => s!"Operator `{op.symbol}` is not supported for type {k.name}"
  | unknownVariable n => s!"Unknown variable '{n}'"
  | unknownFunction n => s!"Unknown function '{n}'"
  | argumentCount n expected found =>
    s!"Function '{n}' expects {expected} arguments, found {found}"
  | invalidArgument details => s!"Invalid argument: {details}"

def message (e : RuntimeError) : String := s!"Error on {e.span.text}: {e.cause.text}."

end RuntimeError

end TemplateExpr
