-- Moments and the spans of time between them, in whole nanoseconds. Both carry the
-- bounds of what they can hold, so sums that leave them have to be refused, and the
-- difference of two moments always fits.
import TemplateExpr.Calendar.Date
import TemplateExpr.Decimal.Digits

namespace TemplateExpr

namespace Calendar

/-! ## Spans of time -/

/-- A signed length of time of at most `2 ^ 63 - 1` milliseconds. -/
structure TimeSpan where
  nanos : Int
  inRange : -9223372036854775807000000 ≤ nanos ∧ nanos ≤ 9223372036854775807000000
deriving DecidableEq

namespace TimeSpan

def ofNanos? (nanos : Int) : Option TimeSpan :=
  if h : -9223372036854775807000000 ≤ nanos ∧ nanos ≤ 9223372036854775807000000 then
    some ⟨nanos, h⟩
  else none

def ofSeconds? (seconds : Int) : Option TimeSpan := ofNanos? (seconds * 1000000000)

/-- What is left of no time at all after a span of time, where that is one. -/
def neg? (d : TimeSpan) : Option TimeSpan := ofNanos? (0 - d.nanos)

/-- The bounds are as far below zero as above it. -/
theorem exists_neg? (d : TimeSpan) : ∃ d', d.neg? = some d' := by
  have h := d.inRange
  exact ⟨_, dif_pos (by omega)⟩

/-- Whole units of 100 nanoseconds, the sign left out. -/
def ticks (d : TimeSpan) : Nat := d.nanos.natAbs / 100

/-- Days where there are any, the time of day, and a fraction of seven digits where there is one. -/
def chars (d : TimeSpan) : List Char :=
  let seconds := d.ticks / 10000000
  let fraction := d.ticks % 10000000
  (if d.nanos < 0 then ['-'] else []) ++
    (if seconds / 86400 = 0 then [] else Decimal.digits (seconds / 86400) ++ ['.']) ++
    Decimal.zeroPadded 2 (seconds / 3600 % 24) ++ ':' ::
    Decimal.zeroPadded 2 (seconds / 60 % 60) ++ ':' :: Decimal.zeroPadded 2 (seconds % 60) ++
    (if fraction = 0 then [] else '.' :: Decimal.zeroPadded 7 fraction)

def text (d : TimeSpan) : String := String.ofList d.chars

end TimeSpan

/-! ## Moments -/

/-- A time of day on a day. -/
structure Civil where
  date : Date
  hour : Nat
  minute : Nat
  second : Nat
  nano : Nat
deriving DecidableEq

namespace Civil

/-- The day exists and the clock can show the time. -/
def Valid (c : Civil) : Prop :=
  c.date.Valid ∧ c.hour < 24 ∧ c.minute < 60 ∧ c.second < 60 ∧ c.nano < 1000000000

instance (c : Civil) : Decidable c.Valid := inferInstanceAs (Decidable (_ ∧ _ ∧ _ ∧ _ ∧ _))

/-- Nanoseconds since the start of day 0. -/
def nanos (c : Civil) : Int :=
  c.date.number * 86400000000000 +
    (((c.hour * 60 + c.minute) * 60 + c.second) * 1000000000 + c.nano : Nat)

def ofNanos (nanos : Int) : Civil :=
  let inDay := (nanos % 86400000000000).toNat
  let seconds := inDay / 1000000000
  ⟨.ofNumber (nanos / 86400000000000), seconds / 3600, seconds / 60 % 60, seconds % 60,
    inDay % 1000000000⟩

end Civil

/-- A moment of the years -262143 to 262142, in nanoseconds since the start of day 0. -/
structure Moment where
  nanos : Int
  inRange : -8272465632000000000000 ≤ nanos ∧ nanos ≤ 8272402473599999999999
deriving DecidableEq

namespace Moment

def ofNanos? (nanos : Int) : Option Moment :=
  if h : -8272465632000000000000 ≤ nanos ∧ nanos ≤ 8272402473599999999999 then some ⟨nanos, h⟩
  else none

/-- The moment that a calendar and a clock show, where both can. -/
def ofCivil? (c : Civil) : Option Moment := if c.Valid then ofNanos? c.nanos else none

/-- What a calendar and a clock show. -/
def civil (m : Moment) : Civil := .ofNanos m.nanos

/-- Whole seconds since day 0, rounded down. -/
def seconds (m : Moment) : Int := m.nanos / 1000000000

/-- Days since day 0, rounded down. -/
def dayNumber (m : Moment) : Int := m.nanos / 86400000000000

def add? (m : Moment) (d : TimeSpan) : Option Moment := ofNanos? (m.nanos + d.nanos)

/-- The time from the second moment to the first. -/
def sub (a b : Moment) : TimeSpan :=
  ⟨a.nanos - b.nanos, by have := a.inRange; have := b.inRange; omega⟩

theorem ofNanos?_nanos (m : Moment) : ofNanos? m.nanos = some m := by
  simp [ofNanos?, m.inRange]

end Moment

end Calendar

end TemplateExpr
