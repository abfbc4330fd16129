-- Expressions as trees. Every node knows its place in the source; that of a binary
-- node is where its operands are, from the start of the left one to the end of the
-- right one.
import TemplateExpr.Binary.Format
import TemplateExpr.Operator
import TemplateExpr.Span

namespace TemplateExpr

/-- A value written down in a source. -/
inductive Literal where
  | null
  | bool (b : Bool)
  | int (n : Int32)
  | long (n : Int64)
  | float (x : Single)
  | double (x : Double)
  | string (s : String)
deriving DecidableEq

inductive Expr where
  | literal (value : Literal) (span : Span)
  | named (name : String) (span : Span)
  | unary (op : UnaryOp) (operand : Expr) (span : Span)
  | binary (op : BinaryOp) (left right : Expr)
  | call (name : String) (arguments : List Expr) (span : Span)
  | list (items : List Expr) (span : Span)

namespace Expr

instance : Inhabited Expr := ⟨literal .null default⟩

/-- The place of the node in its source. -/
def span : Expr → Span
  | literal _ s | named _ s | unary _ _ s | call _ _ s | list _ s => s
  | binary _ l r => l.span.cover r.span

def isBinary : Expr → Bool
  | binary .. => true
  | _ => false

end Expr

end TemplateExpr
