-- Floating-point numbers as text. Values are written positionally, whatever their
-- size; literals keep a fraction and change to exponent form for very large and very
-- small magnitudes, so that the text is a literal again. The reader takes both forms
-- and the names of the special numbers.
import TemplateExpr.Decimal.Shortest

namespace TemplateExpr

namespace Decimal

/-- Every digit before the point or after it, and a point only before a fraction. -/
def positional (d : Decimal) : List Char :=
  if 0 ≤ d.exponent then digits d.coefficient ++ List.replicate d.exponent.toNat '0'
  else
    let places := (-d.exponent).toNat
    let cs := padLeft '0' (places + 1) (digits d.coefficient)
    cs.take (cs.length - places) ++ '.' :: cs.drop (cs.length - places)

/-- One digit before the point, then the power of ten. -/
def scientific (d : Decimal) : List Char :=
  let fraction := (digits d.coefficient).drop 1
  (digits d.coefficient).take 1 ++ (if fraction = [] then [] else '.' :: fraction) ++
    'e' :: intDigits (d.reach - 1)

/-- Positional between `10 ^ -4` and `10 ^ 16`, and then always with a fraction. -/
def literal (d : Decimal) : List Char :=
  if d.coefficient ≠ 0 ∧ (16 ≤ d.reach - 1 ∨ d.reach - 1 < -4) then d.scientific
  else if 0 ≤ d.exponent then d.positional ++ ['.', '0']
  else d.positional

end Decimal

namespace Binary

variable {f : Format}

/-- A number's text, given the text of its magnitude. -/
def textWith (magnitude : Decimal → List Char) (x : Binary f) : List Char :=
  match x with
  | nan => "NaN".toList
  | infinite negative => (if negative then ['-'] else []) ++ "inf".toList
  | finite negative _ _ _ =>
    (if negative then ['-'] else []) ++ (x.decimal?.map magnitude).getD []

/-- The text of a value. -/
def text (x : Binary f) : String := String.ofList (x.textWith Decimal.positional)

/-- The text of a literal, less any suffix. -/
def literalText (x : Binary f) : String := String.ofList (x.textWith Decimal.literal)

end Binary

/-! ## Reading -/

/-- What the text of a number says, before any rounding. -/
inductive Numeral where
  | decimal (negative : Bool) (magnitude : Decimal)
  | infinite (negative : Bool)
  | nan
deriving DecidableEq

namespace Numeral

/-- The number of a format nearest to what is said. -/
def toBinary {f : Binary.Format} : Numeral → Binary f
  | decimal negative d => .ofDecimal negative d
  | infinite negative => .infinite negative
  | nan => .nan

/-- Equality of two texts up to the case of ASCII letters. -/
def sameLetters (a b : List Char) : Bool := a.map Char.toLower == b.map Char.toLower

/-- An exponent after its letter, or none where no text is left. -/
def readExponent? : List Char → Option Int
  | [] => some 0
  | c :: cs => if c = 'e' ∨ c = 'E' then Decimal.readInt? cs else none

/-- Digits with at most one point among them and at least one digit, then an exponent. -/
def readDecimal? (cs : List Char) : Option Decimal := do
  let whole := cs.takeWhile Char.isDigit
  let rest := cs.dropWhile Char.isDigit
  let pointed := rest.head? = some '.'
  let fraction := if pointed then rest.tail.takeWhile Char.isDigit else []
  let rest := if pointed then rest.tail.dropWhile Char.isDigit else rest
  let exponent ← readExponent? rest
  if whole = [] ∧ fraction = [] then none
  else some ⟨Decimal.ofDigits (whole ++ fraction), exponent - fraction.length⟩

def readUnsigned? (negative : Bool) (cs : List Char) : Option Numeral :=
  if sameLetters cs "inf".toList || sameLetters cs "infinity".toList then some (infinite negative)
  else if sameLetters cs "nan".toList then some nan
  else (readDecimal? cs).map (decimal negative)

/-- A number after at most one sign. -/
def read? : List Char → Option Numeral
  | '-' :: cs => readUnsigned? true cs
  | '+' :: cs => readUnsigned? false cs
  | cs => readUnsigned? false cs

end Numeral

end TemplateExpr
