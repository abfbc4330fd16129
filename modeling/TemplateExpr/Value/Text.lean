-- Values as text. Dates follow a pattern; what a list holds is written between square
-- brackets at every depth. For messages there is a short form, in which a long list is
-- cut off and a range is only named.
import TemplateExpr.Calendar.Pattern
import TemplateExpr.Decimal.Numeral
import TemplateExpr.Heap

namespace TemplateExpr

namespace Text

/-- Texts between square brackets, with a comma and a space between them. -/
def bracketed (items : List String) : String := "[" ++ ", ".intercalate items ++ "]"

end Text

def Range.text (r : Range) : String :=
  Text.bracketed (r.toList.map fun n => Decimal.intText n.toInt)

/-- The ends of a range as they are written in a source. -/
def Range.brief (r : Range) : String :=
  Decimal.intText r.first.toInt ++ r.symbol ++ Decimal.intText r.last.toInt

namespace Heap

/-- Lists nested deeper than there are lists contain themselves. -/
def depth (h : Heap) : Nat := h.lists.size

/-- The text of a value that is not a list. -/
def leafText (h : Heap) (pattern : String) : Value → String
  | .null => ""
  | .bool b => if b then "true" else "false"
  | .int n => Decimal.intText n.toInt
  | .long n => Decimal.intText n.toInt
  | .float x => x.text
  | .double x => x.text
  | .string s => s
  | .date m => m.text pattern
  | .timeSpan d => d.text
  | .list _ => "[...]"
  | .range r => r.text
  | .enum member => member.name
  | .object r => ((h.object? r).map HostObject.typeName).getD ""

/-- The text of a value whose lists are nested at most this deep. -/
def textWithin (h : Heap) (pattern : String) : Nat → Value → String
  | d + 1, .list r => Text.bracketed ((h.items r).map (textWithin h pattern d))
  | _, v => h.leafText pattern v

/-- The text of a value, with dates after a pattern. -/
def text (h : Heap) (pattern : String) (v : Value) : String := h.textWithin pattern h.depth v

/-- How many items of a list messages show. -/
def describedItems : Nat := 8

/-- The short form of a value whose lists are nested at most this deep. -/
def describeWithin (h : Heap) : Nat → Value → String
  | d + 1, .list r =>
    let items := h.items r
    Text.bracketed ((items.take describedItems).map (describeWithin h d) ++
      if describedItems < items.length then ["..."] else [])
  | _, .range r => r.brief
  | _, v => h.leafText Calendar.usualPattern v

/-- The short form of a value, for messages. -/
def describe (h : Heap) (v : Value) : String := h.describeWithin h.depth v

end Heap

end TemplateExpr
