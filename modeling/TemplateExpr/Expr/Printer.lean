-- The text of an expression. Only binary operands are put in parentheses, and always,
-- so how tightly operators bind does not matter to a reader of the text.
import TemplateExpr.Decimal.Numeral
import TemplateExpr.Expr
import TemplateExpr.Text.Quoted

namespace TemplateExpr

/-- A literal of this value: longs and floats are marked by a letter, texts by quotes. -/
def Literal.text : Literal → String
  | null => "null"
  | bool b => if b then "true" else "false"
  | int n => Decimal.intText n.toInt
  | long n => Decimal.intText n.toInt ++ "L"
  | float x => x.literalText ++ "f"
  | double x => x.literalText
  | string s => Text.quote s

namespace Expr

/-- The text of an operand, in parentheses where it has to be. -/
def enclosed (e : Expr) (text : String) : String :=
  if e.isBinary then "(" ++ text ++ ")" else text

mutual

def text : Expr → String
  | literal value _ => value.text
  | named name _ => name
  | unary op e _ => op.symbol ++ e.enclosed e.text
  | binary op l r => l.enclosed l.text ++ " " ++ op.symbol ++ " " ++ r.enclosed r.text
  | call name arguments _ => name ++ "(" ++ textAll arguments ++ ")"
  | list items _ => "[" ++ textAll items ++ "]"

/-- Texts with a comma and a space between them. -/
def textAll : List Expr → String
  | [] => ""
  | [e] => e.text
  | e :: es => e.text ++ ", " ++ textAll es

end

end Expr

end TemplateExpr
