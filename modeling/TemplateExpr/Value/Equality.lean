-- Equality of values. Kinds never mix, numbers are compared as numbers, so a NaN
-- differs from itself, and objects are equal only to themselves. A list equals itself
-- whatever it holds; two lists are equal if their items are, place by place.
import TemplateExpr.Binary.Arithmetic
import TemplateExpr.Heap
import TemplateExpr.Value.Text

namespace TemplateExpr

namespace Value

/-- Equality of values, lists counting as equal only if they are one list. -/
def sameLeaf : Value → Value → Bool
  | float x, float y => x.same y
  | double x, double y => x.same y
  | a, b => decide (a = b)

/-- Whether two sequences have the same length and related items. -/
def pairwise (same : Value → Value → Bool) : List Value → List Value → Bool
  | [], [] => true
  | a :: as, b :: bs => same a b && pairwise same as bs
  | _, _ => false

end Value

namespace Heap

/-- Equality of values whose lists are nested at most this deep. -/
def sameWithin (h : Heap) : Nat → Value → Value → Bool
  | d + 1, .list a, .list b =>
    decide (a = b) || Value.pairwise (sameWithin h d) (h.items a) (h.items b)
  | _, a, b => Value.sameLeaf a b

def same (h : Heap) (a b : Value) : Bool := h.sameWithin h.depth a b

end Heap

end TemplateExpr
