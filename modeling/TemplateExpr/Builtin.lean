-- The functions that are always there: one that makes a date of its parts, and four
-- that make a span of time of a count of days, hours, minutes or seconds.
import TemplateExpr.Value.Conversion

namespace TemplateExpr

inductive Builtin where
  | date | days | hours | minutes | seconds
deriving DecidableEq

namespace Builtin

def name : Builtin → String
  | date => "date"
  | days => "days"
  | hours => "hours"
  | minutes => "minutes"
  | seconds => "seconds"

def all : List Builtin := [date, days, hours, minutes, seconds]

def ofName? (s : String) : Option Builtin := all.find? fun b => b.name = s

/-! ## Arguments -/

/-- The counts of arguments that a function takes, as messages name them. -/
def expectedCount (least most : Nat) : String :=
  if least = most then toString least else s!"{least} to {most}"

/-- Refuses a call with too few or too many arguments. -/
def checkCount (name : String) (found least most : Nat) (span : Span) : Except RuntimeError Unit :=
  if least ≤ found ∧ found ≤ most then .ok ()
  else .error ⟨.argumentCount name (expectedCount least most) found, span⟩

def intArgument (h : Heap) (span : Span) (v : Value) : Except RuntimeError Int32 :=
  match v.toInt32? with
  | some n => .ok n
  | none => .error (h.conversionFailure v .int span)

def longArgument (h : Heap) (span : Span) (v : Value) : Except RuntimeError Int64 :=
  match v.toInt64? with
  | some n => .ok n
  | none => .error (h.conversionFailure v .long span)

/-! ## Dates -/

/-- Refuses a part of a date below zero. -/
def checkPart (part : String) (n : Int) (span : Span) : Except RuntimeError Unit :=
  if n < 0 then .error ⟨.invalidArgument s!"{part} must not be negative, found {n}", span⟩
  else .ok ()

/-- The moment with these parts, none of which may be below zero but the year. -/
def moment? (year month day hour minute second : Int) : Option Calendar.Moment :=
  if 0 ≤ month ∧ 0 ≤ day ∧ 0 ≤ hour ∧ 0 ≤ minute ∧ 0 ≤ second then
    Calendar.Moment.ofCivil?
      ⟨⟨year, month.toNat, day.toNat⟩, hour.toNat, minute.toNat, second.toNat, 0⟩
  else none

def padded (width : Nat) (n : Int) : String := String.ofList (Decimal.zeroPaddedInt width n)

/-- The parts of a date as messages show them. -/
def partsText (year month day hour minute second : Int) : String :=
  padded 4 year ++ "-" ++ padded 2 month ++ "-" ++ padded 2 day ++ " " ++
    padded 2 hour ++ ":" ++ padded 2 minute ++ ":" ++ padded 2 second

/-- A date of three to six parts, the missing ones zero. -/
def makeDate (h : Heap) (args : List Value) (span : Span) : Except RuntimeError Value := do
  checkCount "date" args.length 3 6 span
  let parts ← args.mapM (intArgument h span)
  let part (i : Nat) : Int := (parts.getD i 0).toInt
  checkPart "month" (part 1) span
  checkPart "day" (part 2) span
  match moment? (part 0) (part 1) (part 2) (part 3) (part 4) (part 5) with
  | some m => .ok (.date m)
  | none =>
    let text := partsText (part 0) (part 1) (part 2) (part 3) (part 4) (part 5)
    .error ⟨.invalidArgument s!"{text} is not a valid date", span⟩

/-! ## Spans of time -/

/-- A span of time of so many units of this many seconds. -/
def makeTimeSpan (name : String) (unit : Int) (h : Heap) (args : List Value) (span : Span) :
    Except RuntimeError Value := do
  checkCount name args.length 1 1 span
  let count ← longArgument h span (args.headD .null)
  match Calendar.TimeSpan.ofSeconds? (count.toInt * unit) with
  | some d => .ok (.timeSpan d)
  | none => .error ⟨.invalidArgument s!"{name}({count.toInt}) is out of range", span⟩

def call : Builtin → Heap → List Value → Span → Except RuntimeError Value
  | date => makeDate
  | days => makeTimeSpan "days" 86400
  | hours => makeTimeSpan "hours" 3600
  | minutes => makeTimeSpan "minutes" 60
  | seconds => makeTimeSpan "seconds" 1

end Builtin

end TemplateExpr
