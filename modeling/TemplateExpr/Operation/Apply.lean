-- The outcome of an operation on two values. Texts come first, then comparisons with
-- null, then promotion; the operators on sequences make a new list, and the logical
-- ones never fail.
import TemplateExpr.Operation.Promotion
import TemplateExpr.Operation.Strings

namespace TemplateExpr

/-- What an operation gives: a value, or the items of a list that is yet to be made. -/
inductive Outcome where
  | value (v : Value)
  | newList (items : List Value)
deriving DecidableEq

namespace Operation

/-- Comparisons, arithmetic and ranges. -/
def runCalculation (o : Operation) (c : Coercions) (h : Heap) (left right : Value) :
    Reported Value :=
  if left.isString || right.isString then
    .after (.onStrings o.op) (.silent (o.onStrings c left right))
  else if (o.op = .equal || o.op = .notEqual) && (left.isNull || right.isNull) then
    .silent (.ok (.bool ((left.isNull && right.isNull) == (o.op = .equal))))
  else o.runPromotion c h left right

/-- The items of a sequence with one more at its end or at its start. -/
def extended? (h : Heap) (op : BinaryOp) (left right : Value) : Option (List Value) :=
  match op with
  | .append => (h.sequence? left).map (· ++ [right])
  | .prepend => (h.sequence? right).map (left :: ·)
  | _ => none

/-- The answer of a logical operator. -/
def logical (op : BinaryOp) (left right answer : Bool) : Reported Outcome :=
  .after (.logical op left right answer) (pure (.value (.bool answer)))

/-- What an operation comes to once its operands are known. -/
def steps (o : Operation) (c : Coercions) (h : Heap) (left right : Value) : Reported Outcome :=
  match o.op with
  | .coalesce =>
    .after (.coalescing left.isNull) (pure (.value (if left.isNull then right else left)))
  | .and => logical .and (c.truth left) (c.truth right) (c.truth left && c.truth right)
  | .or => logical .or (c.truth left) (c.truth right) (c.truth left || c.truth right)
  | .append | .prepend =>
    match extended? h o.op left right with
    | some items => .after (.extended o.op items.length) (pure (.newList items))
    | none => .silent (.error (o.unsupportedOperator left.kind right.kind))
  | _ => (o.runCalculation c h left right).map .value

/-- An operation with all that it reports. -/
def run (o : Operation) (c : Coercions) (h : Heap) (left right : Value) : Reported Outcome :=
  .after (.evaluating o.op left.kind right.kind) (o.steps c h left right)

/-! ## Results alone -/

def calculate (o : Operation) (c : Coercions) (h : Heap) (left right : Value) :
    Except RuntimeError Value :=
  (o.runCalculation c h left right).result

def apply (o : Operation) (c : Coercions) (h : Heap) (left right : Value) :
    Except RuntimeError Outcome :=
  (o.run c h left right).result

theorem apply_eq (o : Operation) (c : Coercions) (h : Heap) (left right : Value) :
    o.apply c h left right = (o.steps c h left right).result := rfl

theorem steps_of_extended {o : Operation} (hop : o.op = .append ∨ o.op = .prepend) (c : Coercions)
    (h : Heap) (left right : Value) :
    o.steps c h left right =
      match extended? h o.op left right with
      | some items => .after (.extended o.op items.length) (pure (.newList items))
      | none => .silent (.error (o.unsupportedOperator left.kind right.kind)) := by
  rcases hop with hop | hop <;> simp only [steps, hop]

end Operation

/-- The value of an outcome, in a heap that has the new list if there is one. -/
def Heap.place (h : Heap) : Outcome → Value × Heap
  | .value v => (v, h)
  | .newList items => (.list (h.newList items).1, (h.newList items).2)

end TemplateExpr
