-- The one place where numbers are rounded: a ratio goes to the nearest number of
-- the format, a half to the even one, and what is too large to an infinity. All
-- arithmetic is exact on ratios and ends here.
import TemplateExpr.Binary.Format

namespace TemplateExpr

namespace Binary

/-- The quotient rounded to the nearest whole number, a half to the even one. -/
def roundQuotient (a b : Nat) : Nat :=
  if 2 * (a % b) < b ∨ (2 * (a % b) = b ∧ a / b % 2 = 0) then a / b else a / b + 1

/-- The greatest `k` with `2 ^ k ≤ num / den`, for a positive ratio. -/
def binaryLog (num den : Nat) : Int :=
  let guess : Int := num.log2 - den.log2
  if den * twoPow guess.toNat ≤ num * twoPow (-guess).toNat then guess else guess - 1

/-- The power of two of the last place that a number of this size keeps. -/
def Format.lastPlace (f : Format) (num den : Nat) : Int :=
  max f.least (binaryLog num den - f.precision + 1)

variable {f : Format}

/-- The number of the format nearest to `± num / den`. -/
def ofRatio (negative : Bool) (num den : Nat) : Binary f :=
  if num = 0 then zero negative
  else
    let e := f.lastPlace num den
    let m := roundQuotient (num * twoPow (-e).toNat) (den * twoPow e.toNat)
    if m = twoPow f.precision then ofParts negative (m / 2) (e + 1) else ofParts negative m e

/-- The number nearest to `± magnitude * 2 ^ exponent`. -/
def ofScaled (negative : Bool) (magnitude : Nat) (exponent : Int) : Binary f :=
  ofRatio negative (magnitude * twoPow exponent.toNat) (twoPow (-exponent).toNat)

/-- The number nearest to a whole one. -/
def ofInt (n : Int) : Binary f := ofRatio (decide (n < 0)) n.natAbs 1

/-- The same number in another format, rounded once. -/
def convert {g : Format} : Binary f → Binary g
  | nan => nan
  | infinite negative => infinite negative
  | finite negative m e _ => ofScaled negative m e

end Binary

end TemplateExpr
