-- Bringing two operands to one kind. The host converts an operand only if its kind is
-- not the right one yet, left before right, and a host that answers with another kind
-- is not believed.
import TemplateExpr.Coercions
import TemplateExpr.Operation.Arithmetic

namespace TemplateExpr

namespace Operation

/-- An operand as a value of the target kind. -/
def promote (o : Operation) (c : Coercions) (h : Heap) (v : Value) (target : Kind) :
    Except RuntimeError Value :=
  if v.kind = target then .ok v
  else do
    let w ← c.convert o.span v target
    if w.kind = target then .ok w
    else .error ⟨.conversionFailure (h.describe v) v.kind target (some o.text), o.span⟩

/-- Operands with no kind to meet at: dates and spans of time. -/
def offLadder (o : Operation) (h : Heap) (left right : Value) : Except RuntimeError Value :=
  match left, right with
  | .date a, .date b => o.onDates a b
  | .date a, .timeSpan d => o.onDateAndTimeSpan a d
  | _, _ => .error (o.unsupportedTypes h left right)

/-- Operands that have been brought to one kind. -/
def runOnKind (o : Operation) (h : Heap) (left right : Value) : Value → Value → Reported Value
  | .double a, .double b => .silent (o.onDoubles a b)
  | .float a, .float b => .silent (o.onFloats a b)
  | .long a, .long b => .silent (o.onLongs a b)
  | .int a, .int b => o.runInts a b
  | .bool a, .bool b => .silent (o.onBools a b)
  | _, _ => .silent (.error (o.unsupportedTypes h left right))

/-- The target is reported before any operand is converted. -/
def runPromotion (o : Operation) (c : Coercions) (h : Heap) (left right : Value) :
    Reported Value :=
  match Kind.target? left.kind right.kind with
  | none => .silent (o.offLadder h left right)
  | some target => .after (.promoting o.op target) do
    let a ← .silent (o.promote c h left target)
    let b ← .silent (o.promote c h right target)
    o.runOnKind h left right a b

/-! ## Results alone -/

def onPromoted (o : Operation) (h : Heap) (left right a b : Value) : Except RuntimeError Value :=
  (o.runOnKind h left right a b).result

def promoted (o : Operation) (c : Coercions) (h : Heap) (left right : Value) :
    Except RuntimeError Value :=
  (o.runPromotion c h left right).result

section

variable (o : Operation) (c : Coercions) (h : Heap) {left right : Value}

theorem onPromoted_int (a b : Int32) :
    o.onPromoted h left right (.int a) (.int b) = o.onInts a b := rfl

theorem onPromoted_long (a b : Int64) :
    o.onPromoted h left right (.long a) (.long b) = o.onLongs a b := rfl

theorem promoted_of_none (ht : Kind.target? left.kind right.kind = none) :
    o.promoted c h left right = o.offLadder h left right := by
  simp only [promoted, runPromotion, ht, Reported.result_silent]

theorem promoted_of_some {target : Kind} (ht : Kind.target? left.kind right.kind = some target) :
    o.promoted c h left right =
      o.promote c h left target >>= fun a => o.promote c h right target >>= fun b =>
        o.onPromoted h left right a b := by
  simp only [promoted, runPromotion, ht, Reported.result_after, Reported.result_bind,
    Reported.result_silent, onPromoted]

end

end Operation

end TemplateExpr
