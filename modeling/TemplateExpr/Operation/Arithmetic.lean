-- What operators do with two operands of one kind. Integers wrap around, except that
-- a division without an answer is an error; their quotient with a fraction is a float.
-- The whole quotient of floating-point numbers goes through a 32-bit integer.
import TemplateExpr.Binary.Arithmetic
import TemplateExpr.Event
import TemplateExpr.Operation

namespace TemplateExpr

namespace Operation

/-- The answer of a whole division, unless it divides by zero or the answer does not fit. -/
def divided (o : Operation) (byZero overflows : Bool) (answer : Value) :
    Except RuntimeError Value :=
  if byZero then .error o.divisionByZero
  else if overflows then .error o.overflow
  else .ok answer

/-- A new range, which is reported. -/
def madeRange (r : Range) : Reported Value := ⟨.ok (.range r), [.rangeMade r]⟩

def runInts (o : Operation) (a b : Int32) : Reported Value :=
  match o.op with
  | .add => .silent (.ok (.int (a + b)))
  | .subtract => .silent (.ok (.int (a - b)))
  | .multiply => .silent (.ok (.int (a * b)))
  | .divide => .silent (.ok (.float (Binary.div (.ofInt a.toInt) (.ofInt b.toInt))))
  | .quotient => .silent (o.divided (b == 0) (a == Int32.minValue && b == -1) (.int (a / b)))
  | .remainder => .silent (o.divided (b == 0) (a == Int32.minValue && b == -1) (.int (a % b)))
  | .through => madeRange ⟨a, b, true⟩
  | .below => madeRange ⟨a, b, false⟩
  | op =>
    .silent <|
      if op.isComparison then .ok (.bool (op.holds (some (compare a.toInt b.toInt))))
      else .error (o.unsupportedOperator .int .int)

def onInts (o : Operation) (a b : Int32) : Except RuntimeError Value := (o.runInts a b).result

def onLongs (o : Operation) (a b : Int64) : Except RuntimeError Value :=
  match o.op with
  | .add => .ok (.long (a + b))
  | .subtract => .ok (.long (a - b))
  | .multiply => .ok (.long (a * b))
  | .divide => .ok (.float (Binary.div (.ofInt a.toInt) (.ofInt b.toInt)))
  | .quotient => o.divided (b == 0) (a == Int64.minValue && b == -1) (.long (a / b))
  | .remainder => o.divided (b == 0) (a == Int64.minValue && b == -1) (.long (a % b))
  | op =>
    if op.isComparison then .ok (.bool (op.holds (some (compare a.toInt b.toInt))))
    else .error (o.unsupportedOperator .long .long)

def onFloats (o : Operation) (a b : Single) : Except RuntimeError Value :=
  match o.op with
  | .add => .ok (.float (a.add b))
  | .subtract => .ok (.float (a.sub b))
  | .multiply => .ok (.float (a.mul b))
  | .divide => .ok (.float (a.div b))
  | .quotient => .ok (.double (Double.truncateThroughInt32 (a.div b).convert))
  | .remainder => .ok (.float (a.rem b))
  | op =>
    if op.isComparison then .ok (.bool (op.holds (a.compare? b)))
    else .error (o.unsupportedOperator .float .float)

/-- The dividend of a division with a fraction is first rounded to a float. -/
def onDoubles (o : Operation) (a b : Double) : Except RuntimeError Value :=
  match o.op with
  | .add => .ok (.double (a.add b))
  | .subtract => .ok (.double (a.sub b))
  | .multiply => .ok (.double (a.mul b))
  | .divide => .ok (.double (Binary.div (a.convert : Single).convert b))
  | .quotient => .ok (.double (Double.truncateThroughInt32 (a.div b)))
  | .remainder => .ok (.double (a.rem b))
  | op =>
    if op.isComparison then .ok (.bool (op.holds (a.compare? b)))
    else .error (o.unsupportedOperator .double .double)

/-- Booleans are equal or not, and nothing else. -/
def onBools (o : Operation) (a b : Bool) : Except RuntimeError Value :=
  match o.op with
  | .equal => .ok (.bool (a == b))
  | .notEqual => .ok (.bool (a != b))
  | _ => .error (o.unsupportedOperator .bool .bool)

def onDates (o : Operation) (a b : Calendar.Moment) : Except RuntimeError Value :=
  match o.op with
  | .subtract => .ok (.timeSpan (a.sub b))
  | op =>
    if op.isComparison then .ok (.bool (op.holds (some (compare a.nanos b.nanos))))
    else .error (o.unsupportedOperator .date .date)

def onDateAndTimeSpan (o : Operation) (a : Calendar.Moment) (d : Calendar.TimeSpan) :
    Except RuntimeError Value :=
  match o.op with
  | .add =>
    match a.add? d with
    | some m => .ok (.date m)
    | none => .error o.overflow
  | _ => .error (o.unsupportedOperator .date .timeSpan)

end Operation

end TemplateExpr
