-- The kinds of values, and the ladder on which two operands meet.

namespace TemplateExpr

inductive Kind where
  | null | bool | int | long | float | double | string
  | date | timeSpan | list | range | enum | object
deriving DecidableEq, Repr

namespace Kind

def all : List Kind :=
  [null, bool, int, long, float, double, string, date, timeSpan, list, range, enum, object]

def name : Kind → String
  | null => "null"
  | bool => "bool"
  | int => "int"
  | long => "long"
  | float => "float"
  | double => "double"
  | string => "string"
  | date => "date"
  | timeSpan => "timespan"
  | list => "list"
  | range => "range"
  | enum => "enum"
  | object => "object"

theorem mem_all (k : Kind) : k ∈ all := by cases k <;> decide

/-- The kinds that operands are promoted to, highest first. -/
def ladder : List Kind := [double, float, long, int, bool]

/-- Where a kind stands on the ladder; enums stand with the ints. -/
def rung : Kind → Kind
  | enum => int
  | k => k

/-- The kind that two operands are promoted to: the highest on the ladder that one of them has. -/
def target? (left right : Kind) : Option Kind :=
  ladder.find? fun k => left.rung = k || right.rung = k

theorem target?_comm (left right : Kind) : target? left right = target? right left := by
  simp only [target?, Bool.or_comm]

end Kind

end TemplateExpr
