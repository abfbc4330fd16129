-- Days of the proleptic Gregorian calendar, as a year, a month and a day, and as a
-- count of days. Day 0 is 1 January of the year 1, which is a Monday.

namespace TemplateExpr

namespace Calendar

/-! ## Years and months -/

def leap (year : Int) : Bool := year % 4 == 0 && (year % 100 != 0 || year % 400 == 0)

/-- Days from day 0 to the first day of a year. -/
def daysBefore (year : Int) : Int :=
  365 * (year - 1) + (year - 1) / 4 - (year - 1) / 100 + (year - 1) / 400

def monthLengths (year : Int) : List Nat :=
  [31, if leap year then 29 else 28, 31, 30, 31, 30, 31, 31, 30, 31, 30, 31]

/-- The length of a month counted from one; a month that no year has is empty. -/
def monthLength (year : Int) (month : Nat) : Nat :=
  if month = 0 then 0 else (monthLengths year).getD (month - 1) 0

/-- Days of a year before the first of a month. -/
def daysBeforeMonth (year : Int) (month : Nat) : Nat :=
  ((monthLengths year).take (month - 1)).foldr (· + ·) 0

/-- The block that a position falls into, among blocks of these lengths, and its place there. -/
def locate : List Nat → Nat → Nat × Nat
  | [], d => (0, d)
  | n :: ns, d => if d < n then (0, d) else ((locate ns (d - n)).1 + 1, (locate ns (d - n)).2)

/-! ## Days -/

structure Date where
  year : Int
  month : Nat
  day : Nat
deriving DecidableEq

namespace Date

/-- The day exists. -/
def Valid (d : Date) : Prop := 1 ≤ d.day ∧ d.day ≤ monthLength d.year d.month

instance (d : Date) : Decidable d.Valid := inferInstanceAs (Decidable (_ ∧ _))

/-- Days since day 0. -/
def number (d : Date) : Int :=
  daysBefore d.year + (daysBeforeMonth d.year d.month + d.day : Nat) - 1

end Date

/-- The year of a day, and the days of that year before it. Cycles of 400, 100, 4 and 1 years are
taken off in turn; the last of four centuries or years is a day longer. -/
def yearAndDay (number : Int) : Int × Nat :=
  let inCycle := (number % 146097).toNat
  let century := min (inCycle / 36524) 3
  let inCentury := inCycle - 36524 * century
  let four := inCentury / 1461
  let inFour := inCentury % 1461
  let one := min (inFour / 365) 3
  (400 * (number / 146097) + (100 * century + 4 * four + one + 1 : Nat), inFour - 365 * one)

namespace Date

/-- The day with this many days between it and day 0. -/
def ofNumber (number : Int) : Date :=
  let year := (yearAndDay number).1
  let place := locate (monthLengths year) (yearAndDay number).2
  ⟨year, place.1 + 1, place.2 + 1⟩

end Date

/-! ## Weeks -/

/-- Days since the last Monday. -/
def weekday (number : Int) : Nat := (number % 7).toNat

/-- The week of a year, its first week beginning on the first day of weeks, days before that
being in week 0. -/
def weekOfYear (dayOfYear daysIntoWeek : Nat) : Nat := (dayOfYear + 7 - daysIntoWeek) / 7

/-- The year and week of a day where weeks belong to the year that has their Thursday. -/
def isoWeek (number : Int) : Int × Nat :=
  let thursday := yearAndDay (number - weekday number + 3)
  (thursday.1, thursday.2 / 7 + 1)

end Calendar

end TemplateExpr
