-- Ranges of 32-bit integers. A range counts up where its start is below its end and
-- down everywhere else, so a range from a number to itself goes down by one step.

namespace TemplateExpr

structure Range where
  first : Int32
  last : Int32
  inclusive : Bool
deriving DecidableEq

namespace Range

/-- A place in a range: the next number, the first one past the range, and the step. -/
structure Cursor where
  next : Int
  stop : Int
  step : Int
deriving DecidableEq

namespace Cursor

/-- How many numbers are left. -/
def remaining (c : Cursor) : Nat := ((c.stop - c.next) * c.step).toNat

/-- The next number and the place after it. -/
def next? (c : Cursor) : Option (Int32 × Cursor) :=
  if (if 0 < c.step then c.next < c.stop else c.stop < c.next) then
    if -2147483648 ≤ c.next ∧ c.next ≤ 2147483647 then
      some (Int32.ofInt c.next, { c with next := c.next + c.step })
    else none
  else none

/-- One step: the next number, and the place after it, which at the end is the same place. -/
def advance (c : Cursor) : Option Int32 × Cursor :=
  match c.next? with
  | some (n, c) => (some n, c)
  | none => (none, c)

/-- The numbers of the first steps, fewer where the range ends before. -/
def take : Nat → Cursor → List Int32
  | 0, _ => []
  | n + 1, c =>
    match c.next? with
    | some (i, c) => i :: take n c
    | none => []

/-- Each of the first steps with the count of numbers left after it. -/
def steps : Nat → Cursor → List (Option Int32 × Nat)
  | 0, _ => []
  | n + 1, c => (c.advance.1, c.advance.2.remaining) :: steps n c.advance.2

end Cursor

def begin (r : Range) : Cursor :=
  let first := r.first.toInt
  let last := r.last.toInt
  if first < last then ⟨first, if r.inclusive then last + 1 else last, 1⟩
  else ⟨first, if r.inclusive then last - 1 else last, -1⟩

/-- How many numbers the range has. -/
def length (r : Range) : Nat := r.begin.remaining

/-- The numbers of the range in its order. -/
def toList (r : Range) : List Int32 := r.begin.take r.length

def symbol (r : Range) : String := if r.inclusive then ".." else "..<"

end Range

end TemplateExpr
