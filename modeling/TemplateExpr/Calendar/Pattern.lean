-- Patterns for the text of a moment: a percent sign and a letter stand for a part of
-- it, between them an optional choice of padding for the numbers. A pattern with
-- anything else after a percent sign gives no text at all.
import TemplateExpr.Calendar.Moment

namespace TemplateExpr

namespace Calendar

/-! ## Parts of a moment -/

/-- How a number is brought to its width. -/
inductive Padding where
  | none
  | space
  | zero
deriving DecidableEq

/-- A part of a moment that is a number. -/
inductive Field where
  | year | century | yearOfCentury | isoYear | isoYearOfCentury
  | quarter | month | day | weekFromSunday | weekFromMonday | isoWeek
  | daysFromSunday | weekday | dayOfYear
  | hour | hour12 | minute | second | nano | seconds
deriving DecidableEq

/-- A piece of a pattern: text as it is, a number, a word, or a fraction of a second. -/
inductive Piece where
  | verbatim (c : Char)
  | number (field : Field) (padding : Padding)
  | weekdayName (full : Bool)
  | monthName (full : Bool)
  | halfOfDay (capital : Bool)
  | fraction (digits : Nat) (pointed : Bool)
  | shortFraction
deriving DecidableEq

def weekdayNames : List String :=
  ["Monday", "Tuesday", "Wednesday", "Thursday", "Friday", "Saturday", "Sunday"]

def monthNames : List String :=
  ["January", "February", "March", "April", "May", "June", "July", "August", "September",
    "October", "November", "December"]

/-- A name, or its first three letters. -/
def name (names : List String) (index : Nat) (full : Bool) : List Char :=
  let cs := (names.getD index "").toList
  if full then cs else cs.take 3

/-! ## Text of a part -/

namespace Padding

/-- A number of any size, at least `width` characters wide unless there is no padding. -/
def int (padding : Padding) (width : Nat) (n : Int) : List Char :=
  match padding with
  | none => Decimal.intDigits n
  | space => Decimal.padLeft ' ' width (Decimal.intDigits n)
  | zero => Decimal.zeroPaddedInt width n

/-- The same with a plus sign on a number that is not negative, and a place more for it. -/
def signedInt (padding : Padding) (width : Nat) (n : Int) : List Char :=
  let sign := if n < 0 then '-' else '+'
  match padding with
  | none => sign :: Decimal.digits n.natAbs
  | space => Decimal.padLeft ' ' (width + 1) (sign :: Decimal.digits n.natAbs)
  | zero => sign :: Decimal.zeroPadded width n.natAbs

/-- Four digits, and a sign as well outside the years 0 to 9999. -/
def year (padding : Padding) (n : Int) : List Char :=
  if 0 ≤ n ∧ n ≤ 9999 then padding.int 4 n else padding.signedInt 4 n

/-- A byte as two places, the first of which counts tens and is padded where there are none. Tens
past the ninth go on through the characters after the digits. -/
def two (padding : Padding) (n : Nat) : List Char :=
  let ones := Char.ofNat (48 + n % 10)
  if n / 10 = 0 then
    match padding with
    | none => [ones]
    | space => [' ', ones]
    | zero => ['0', ones]
  else [Char.ofNat (48 + n / 10), ones]

end Padding

/-- Seconds from day 0 to 1 January 1970. -/
def unixEpoch : Int := 62135596800

/-- The hour on a clock with twelve of them. -/
def hour12 (hour : Nat) : Nat := if hour % 12 = 0 then 12 else hour % 12

/-- The text of a number that is part of a moment. -/
def Field.text (m : Moment) (padding : Padding) : Field → List Char
  | year => padding.year m.civil.date.year
  | century => padding.two (m.civil.date.year / 100 % 256).toNat
  | yearOfCentury => padding.two (m.civil.date.year % 100).toNat
  | isoYear => padding.year (Calendar.isoWeek m.dayNumber).1
  | isoYearOfCentury => padding.two ((Calendar.isoWeek m.dayNumber).1 % 100).toNat
  | quarter => Decimal.digits ((m.civil.date.month - 1) / 3 + 1)
  | month => padding.two m.civil.date.month
  | day => padding.two m.civil.date.day
  | weekFromSunday =>
    padding.two (weekOfYear (yearAndDay m.dayNumber).2 ((Calendar.weekday m.dayNumber + 1) % 7))
  | weekFromMonday =>
    padding.two (weekOfYear (yearAndDay m.dayNumber).2 (Calendar.weekday m.dayNumber))
  | isoWeek => padding.two (Calendar.isoWeek m.dayNumber).2
  | daysFromSunday => Decimal.digits ((Calendar.weekday m.dayNumber + 1) % 7)
  | weekday => Decimal.digits (Calendar.weekday m.dayNumber + 1)
  | dayOfYear => padding.int 3 ((yearAndDay m.dayNumber).2 + 1)
  | hour => padding.two m.civil.hour
  | hour12 => padding.two (Calendar.hour12 m.civil.hour)
  | minute => padding.two m.civil.minute
  | second => padding.two m.civil.second
  | nano => padding.int 9 m.civil.nano
  | seconds => padding.int 9 (m.seconds - unixEpoch)

/-- The first digits of a fraction of nine. -/
def fractionDigits (digits nano : Nat) : List Char := (Decimal.zeroPadded 9 nano).take digits

/-- The text of a piece of a pattern. -/
def Piece.text (m : Moment) : Piece → List Char
  | verbatim c => [c]
  | number field padding => field.text m padding
  | weekdayName full => name weekdayNames (weekday m.dayNumber) full
  | monthName full => name monthNames (m.civil.date.month - 1) full
  | halfOfDay capital =>
    match decide (m.civil.hour < 12), capital with
    | true, true => ['A', 'M']
    | true, false => ['a', 'm']
    | false, true => ['P', 'M']
    | false, false => ['p', 'm']
  | fraction digits pointed =>
    (if pointed then ['.'] else []) ++ fractionDigits digits m.civil.nano
  | shortFraction =>
    let nano := m.civil.nano
    if nano = 0 then []
    else
      '.' ::
        fractionDigits (if nano % 1000000 = 0 then 3 else if nano % 1000 = 0 then 6 else 9) nano

/-! ## Reading a pattern -/

/-- The numbers, with the padding that each has when none is chosen. -/
def numeric? : Char → Option (Field × Padding)
  | 'Y' => some (.year, .zero)
  | 'C' => some (.century, .zero)
  | 'y' => some (.yearOfCentury, .zero)
  | 'G' => some (.isoYear, .zero)
  | 'g' => some (.isoYearOfCentury, .zero)
  | 'q' => some (.quarter, .none)
  | 'm' => some (.month, .zero)
  | 'd' => some (.day, .zero)
  | 'e' => some (.day, .space)
  | 'U' => some (.weekFromSunday, .zero)
  | 'W' => some (.weekFromMonday, .zero)
  | 'V' => some (.isoWeek, .zero)
  | 'w' => some (.daysFromSunday, .none)
  | 'u' => some (.weekday, .none)
  | 'j' => some (.dayOfYear, .zero)
  | 'H' => some (.hour, .zero)
  | 'k' => some (.hour, .space)
  | 'I' => some (.hour12, .zero)
  | 'l' => some (.hour12, .space)
  | 'M' => some (.minute, .zero)
  | 'S' => some (.second, .zero)
  | 'f' => some (.nano, .zero)
  | 's' => some (.seconds, .none)
  | _ => none

/-- A number by its letter, padded as usual. -/
def usual (c : Char) : List Piece :=
  ((numeric? c).map fun (field, padding) => Piece.number field padding).toList

/-- Numbers with the same character between them. -/
def joined (separator : Char) (letters : List Char) : List Piece :=
  (letters.map usual).intersperse [.verbatim separator] |>.flatten

/-- The words, and the patterns that have a letter of their own. -/
def worded? : Char → Option (List Piece)
  | 'A' => some [.weekdayName true]
  | 'a' => some [.weekdayName false]
  | 'B' => some [.monthName true]
  | 'b' => some [.monthName false]
  | 'h' => some [.monthName false]
  | 'p' => some [.halfOfDay true]
  | 'P' => some [.halfOfDay false]
  | 'D' => some (joined '/' ['m', 'd', 'y'])
  | 'x' => some (joined '/' ['m', 'd', 'y'])
  | 'F' => some (joined '-' ['Y', 'm', 'd'])
  | 'v' => some (usual 'e' ++ [.verbatim '-', .monthName false, .verbatim '-'] ++ usual 'Y')
  | 'R' => some (joined ':' ['H', 'M'])
  | 'T' => some (joined ':' ['H', 'M', 'S'])
  | 'X' => some (joined ':' ['H', 'M', 'S'])
  | 'r' => some (joined ':' ['I', 'M', 'S'] ++ [.verbatim ' ', .halfOfDay true])
  | 'c' => some ([.weekdayName false, .verbatim ' ', .monthName false, .verbatim ' '] ++
      usual 'e' ++ [.verbatim ' '] ++ joined ':' ['H', 'M', 'S'] ++ [.verbatim ' '] ++ usual 'Y')
  | 'n' => some [.verbatim '\n']
  | 't' => some [.verbatim '\t']
  | '%' => some [.verbatim '%']
  | _ => none

/-- What a letter after a percent sign stands for; only numbers take a chosen padding. -/
def letter? (padding : Option Padding) (c : Char) : Option (List Piece) :=
  match numeric? c, padding with
  | some (field, usual), chosen => some [.number field (chosen.getD usual)]
  | none, some _ => none
  | none, none => worded? c

/-- The pieces of a pattern, if it has only such. -/
def pieces? : List Char → Option (List Piece)
  | [] => some []
  | '%' :: '.' :: 'f' :: cs => (pieces? cs).map (.shortFraction :: ·)
  | '%' :: '.' :: '3' :: 'f' :: cs => (pieces? cs).map (.fraction 3 true :: ·)
  | '%' :: '.' :: '6' :: 'f' :: cs => (pieces? cs).map (.fraction 6 true :: ·)
  | '%' :: '.' :: '9' :: 'f' :: cs => (pieces? cs).map (.fraction 9 true :: ·)
  | '%' :: '3' :: 'f' :: cs => (pieces? cs).map (.fraction 3 false :: ·)
  | '%' :: '6' :: 'f' :: cs => (pieces? cs).map (.fraction 6 false :: ·)
  | '%' :: '9' :: 'f' :: cs => (pieces? cs).map (.fraction 9 false :: ·)
  | '%' :: '-' :: c :: cs => do return (← letter? (some .none) c) ++ (← pieces? cs)
  | '%' :: '0' :: c :: cs => do return (← letter? (some .zero) c) ++ (← pieces? cs)
  | '%' :: '_' :: c :: cs => do return (← letter? (some .space) c) ++ (← pieces? cs)
  | '%' :: c :: cs => do return (← letter? none c) ++ (← pieces? cs)
  | ['%'] => none
  | c :: cs => (pieces? cs).map (.verbatim c :: ·)

/-- A moment written after a pattern, if the pattern has only known pieces. -/
def Moment.format? (m : Moment) (pattern : String) : Option String :=
  (pieces? pattern.toList).map fun pieces => String.ofList (pieces.flatMap (·.text m))

/-- The day in two digits, the short name of the month and the year. -/
def usualPattern : String := "%d %b %Y"

/-- A moment written after a pattern, or after the usual one if the pattern cannot be followed. -/
def Moment.text (m : Moment) (pattern : String) : String :=
  (m.format? pattern).getD ((m.format? usualPattern).getD "")

end Calendar

end TemplateExpr
