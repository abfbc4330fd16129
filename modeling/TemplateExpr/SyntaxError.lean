-- What can be wrong with a source, and the message that says so.
import TemplateExpr.Span

namespace TemplateExpr

inductive SyntaxError where
  /-- Text that is no token, or a token where an operand has to begin. -/
  | unexpectedToken (token : String) (span : Span)
  /-- The tokens end where an operand or a closing bracket has to follow. -/
  | unexpectedEnd (line : Nat)
  /-- A bracket that is not closed where it has to be. -/
  | expectedDelimiter (expected : Char) (span : Span)
  /-- A token after a whole expression. -/
  | trailingToken (token : String) (span : Span)
  /-- Digits for a number that its type does not have. -/
  | outOfRange (literal : String) (span : Span)
deriving DecidableEq

namespace SyntaxError

def span? : SyntaxError → Option Span
  | unexpectedToken _ s | expectedDelimiter _ s | trailingToken _ s | outOfRange _ s => some s
  | unexpectedEnd _ => none

def message : SyntaxError → String
  | unexpectedToken token s => s!"Error on {s.text}: Unexpected token: {token}."
  | unexpectedEnd line => s!"Error on line {line}: Unexpected end of input."
  | expectedDelimiter c s => s!"Error on {s.text}: Expected '{c}' but none found."
  | trailingToken token s => s!"Error on {s.text}: Extra tokens after expression: {token}."
  | outOfRange literal s => s!"Error on {s.text}: Literal '{literal}' is out of range."

end SyntaxError

end TemplateExpr
