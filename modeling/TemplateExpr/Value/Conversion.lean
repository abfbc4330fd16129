-- Conversion of values to a kind. Numbers, booleans, enums and texts convert among the
-- numeric kinds and to booleans; every other kind is reached only from itself. Whole
-- numbers have to fit, after rounding a half to the even neighbour where there is a
-- fraction, and texts have to be numbers apart from blanks at their ends.
import TemplateExpr.Binary.Narrowing
import TemplateExpr.Decimal.Numeral
import TemplateExpr.RuntimeError
import TemplateExpr.Text.Blank
import TemplateExpr.Value.Text

namespace TemplateExpr

namespace Value

/-- The whole number of a value that has one exactly. -/
def integer? : Value → Option Int
  | bool b => some (if b then 1 else 0)
  | int n => some n.toInt
  | long n => some n.toInt
  | enum member => some member.value.toInt
  | _ => none

/-- The floating-point number of a format that a value is read or rounded to. -/
def binary? {f : Binary.Format} : Value → Option (Binary f)
  | float x => some x.convert
  | double x => some x.convert
  | string s => (Numeral.read? (Text.trim s.toList)).map Numeral.toBinary
  | v => v.integer?.map .ofInt

/-- The word for a value, given how a double is rounded to one and which whole numbers have one. -/
def word? {α : Type} (round? : Double → Option α) (narrow? : Int → Option α) : Value → Option α
  | float x => round? x.convert
  | double x => round? x
  | string s => (Decimal.readInt? (Text.trim s.toList)).bind narrow?
  | v => v.integer?.bind narrow?

def toInt32? (v : Value) : Option Int32 := v.word? Double.roundToInt32? int32?

def toInt64? (v : Value) : Option Int64 := v.word? Double.roundToInt64? int64?

/-- True and false in any case of their letters. -/
def readBool? (cs : List Char) : Option Bool :=
  if Numeral.sameLetters cs "true".toList then some true
  else if Numeral.sameLetters cs "false".toList then some false
  else none

/-- A number is true unless it is zero. -/
def toBool? : Value → Option Bool
  | float x => some !x.isZero
  | double x => some !x.isZero
  | string s => readBool? (Text.trim s.toList)
  | v => v.integer?.map (· != 0)

/-- The value of a kind that a value converts to. -/
def convert? (v : Value) (kind : Kind) : Option Value :=
  if v.kind = kind then some v
  else
    match kind with
    | .int => v.toInt32?.map .int
    | .long => v.toInt64?.map .long
    | .float => v.binary?.map .float
    | .double => v.binary?.map .double
    | .bool => v.toBool?.map .bool
    | _ => none

end Value

namespace Heap

/-- The error for a value that does not convert to a kind. -/
def conversionFailure (h : Heap) (v : Value) (kind : Kind) (span : Span) : RuntimeError :=
  ⟨.conversionFailure (h.describe v) v.kind kind none, span⟩

/-- The value of a kind that a value converts to, or the error that says there is none. -/
def convert (h : Heap) (span : Span) (v : Value) (kind : Kind) : Except RuntimeError Value :=
  match v.convert? kind with
  | some w => .ok w
  | none => .error (h.conversionFailure v kind span)

end Heap

end TemplateExpr
