-- An operation: a binary operator with the two expressions it stands between. The
-- expressions serve messages only; what is computed depends on the operand values
-- and on the coercions that the host offers.
import TemplateExpr.Expr.Printer
import TemplateExpr.Value.Conversion

namespace TemplateExpr

/-! ## Comparing -/

/-- Whether a comparison holds for operands in this order; `none` is for operands that have no
order, of which only `!=` holds. -/
def BinaryOp.holds (op : BinaryOp) (order : Option Ordering) : Bool :=
  match op, order with
  | .equal, some .eq => true
  | .notEqual, o => o != some .eq
  | .greater, some .gt => true
  | .less, some .lt => true
  | .greaterEqual, some o => o != .lt
  | .lessEqual, some o => o != .gt
  | _, _ => false

/-! ## Operations and their errors -/

structure Operation where
  op : BinaryOp
  left : Expr
  right : Expr

namespace Operation

/-- The node that stands for the operation. -/
def expr (o : Operation) : Expr := .binary o.op o.left o.right

def span (o : Operation) : Span := o.expr.span

def text (o : Operation) : String := o.expr.text

def unsupportedOperator (o : Operation) (left right : Kind) : RuntimeError :=
  ⟨.unsupportedOperator o.op o.text o.left.text left o.right.text right, o.span⟩

def unsupportedTypes (o : Operation) (h : Heap) (left right : Value) : RuntimeError :=
  ⟨.unsupportedTypes o.op o.text (h.describe left) left.kind (h.describe right) right.kind, o.span⟩

def notRepeatable (o : Operation) : RuntimeError := ⟨.notRepeatable o.op o.text, o.span⟩

def divisionByZero (o : Operation) : RuntimeError := ⟨.divisionByZero o.text, o.span⟩

def overflow (o : Operation) : RuntimeError := ⟨.overflow o.text, o.span⟩

end Operation

end TemplateExpr
