-- The services that operators ask the host for. A host may decide for itself what
-- counts as true, how a value is written, and how operands are brought to one kind;
-- what a heap and a date pattern offer by themselves are the standard answers.
import TemplateExpr.Value.Conversion

namespace TemplateExpr

structure Coercions where
  truth : Value → Bool
  text : Span → Value → String
  convert : Span → Value → Kind → Except RuntimeError Value

namespace Coercions

/-- The answers that follow from the values alone, with dates after a pattern. -/
def standard (h : Heap) (pattern : String) : Coercions :=
  ⟨Value.truth, fun _ => h.text pattern, h.convert⟩

end Coercions

end TemplateExpr
