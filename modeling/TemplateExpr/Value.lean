-- Values. Lists and host objects are references into a heap, so copying a value never
-- copies a list, and two values can be the same list.
import TemplateExpr.Binary.Format
import TemplateExpr.Calendar.Moment
import TemplateExpr.Expr
import TemplateExpr.Kind
import TemplateExpr.Range

namespace TemplateExpr

/-- A member of a host's enumeration, with the integer behind it. -/
structure EnumMember where
  typeName : String
  name : String
  value : Int32
deriving DecidableEq

/-- The place of a list in a heap. -/
structure ListRef where
  index : Nat
deriving DecidableEq

/-- The place of a host object in a heap. -/
structure ObjectRef where
  index : Nat
deriving DecidableEq

inductive Value where
  | null
  | bool (b : Bool)
  | int (n : Int32)
  | long (n : Int64)
  | float (x : Single)
  | double (x : Double)
  | string (s : String)
  | date (m : Calendar.Moment)
  | timeSpan (d : Calendar.TimeSpan)
  | list (r : ListRef)
  | range (r : Range)
  | enum (member : EnumMember)
  | object (r : ObjectRef)
deriving DecidableEq

namespace Value

def kind : Value → Kind
  | null => .null
  | bool _ => .bool
  | int _ => .int
  | long _ => .long
  | float _ => .float
  | double _ => .double
  | string _ => .string
  | date _ => .date
  | timeSpan _ => .timeSpan
  | list _ => .list
  | range _ => .range
  | enum _ => .enum
  | object _ => .object

def isNull : Value → Bool
  | null => true
  | _ => false

def isString : Value → Bool
  | string _ => true
  | _ => false

/-- Null and false are false, and everything else is true. -/
def truth : Value → Bool
  | null | bool false => false
  | _ => true

end Value

/-- The value of a literal. -/
def Literal.value : Literal → Value
  | null => .null
  | bool b => .bool b
  | int n => .int n
  | long n => .long n
  | float x => .float x
  | double x => .double x
  | string s => .string s

end TemplateExpr
