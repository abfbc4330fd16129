-- Tokens, and the form in which messages show them.
import TemplateExpr.Binary.Format
import TemplateExpr.Decimal.Numeral
import TemplateExpr.Operator
import TemplateExpr.Text.Quoted

namespace TemplateExpr

inductive Bracket where
  | round
  | square
deriving DecidableEq, Repr

namespace Bracket

def closer : Bracket → Char
  | round => ')'
  | square => ']'

end Bracket

/-- The words `and` and `or` are operators like any other. A minus sign is `subtract` also where it
stands in front of an operand. -/
inductive Token where
  | double (x : Double)
  | float (x : Single)
  | long (n : Int64)
  | integer (n : Int64)
  | string (s : String)
  | bool (b : Bool)
  | null
  | identifier (name : String)
  | operator (op : BinaryOp)
  | bang
  | comma
  | opening (b : Bracket)
  | closing (b : Bracket)
deriving DecidableEq

/-- The name that messages use for an operator. -/
def BinaryOp.tokenName : BinaryOp → String
  | add => "Plus"
  | subtract => "Minus"
  | multiply => "Star"
  | divide => "Slash"
  | quotient => "SlashSlash"
  | remainder => "Percent"
  | equal => "EqualEqual"
  | notEqual => "BangEqual"
  | greater => "Greater"
  | less => "Less"
  | greaterEqual => "GreaterEqual"
  | lessEqual => "LessEqual"
  | through => "DotDot"
  | below => "DotDotLess"
  | and => "And"
  | or => "Or"
  | coalesce => "DoubleQuestion"
  | append => "LessLess"
  | prepend => "GreaterGreater"

/-- The form in which messages show a token. -/
def Token.text : Token → String
  | double x => "Double(" ++ x.literalText ++ ")"
  | float x => "Float(" ++ x.literalText ++ ")"
  | long n => "Long(" ++ Decimal.intText n.toInt ++ ")"
  | integer n => "Integer(" ++ Decimal.intText n.toInt ++ ")"
  | string s => "Str(" ++ Text.display s ++ ")"
  | bool b => "Bool(" ++ (if b then "true" else "false") ++ ")"
  | null => "Null"
  | identifier name => "Identifier(" ++ Text.display name ++ ")"
  | operator op => op.tokenName
  | bang => "Bang"
  | comma => "Comma"
  | opening .round => "LParen"
  | opening .square => "LBracket"
  | closing .round => "RParen"
  | closing .square => "RBracket"

end TemplateExpr
