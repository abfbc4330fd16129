-- Decimals as data, and the floating-point number nearest to one.
import TemplateExpr.Binary.Rounding
import TemplateExpr.Decimal.Digits

namespace TemplateExpr

/-- The number `coefficient * 10 ^ exponent`. -/
structure Decimal where
  coefficient : Nat
  exponent : Int
deriving DecidableEq

namespace Decimal

/-- `10 ^ k`. -/
def tenPow (k : Nat) : Nat := Nat.pow 10 k

/-- Numerator of the decimal as a ratio. -/
def num (d : Decimal) : Nat := d.coefficient * tenPow d.exponent.toNat

/-- Denominator of the decimal as a ratio. -/
def den (d : Decimal) : Nat := tenPow (-d.exponent).toNat

/-- A power of ten above the number; the one below it is not, unless the number is zero. -/
def reach (d : Decimal) : Int := (digits d.coefficient).length + d.exponent

/-- The same number with no zero at the end of its coefficient. -/
def trimmed (d : Decimal) : Decimal :=
  if d.coefficient ≠ 0 ∧ d.coefficient % 10 = 0 then
    trimmed ⟨d.coefficient / 10, d.exponent + 1⟩
  else d
termination_by d.coefficient
decreasing_by omega

end Decimal

/-- The floating-point number nearest to a decimal. Far outside the range of the format the
answer follows from the count of digits alone, and no power of ten is computed. -/
def Binary.ofDecimal {f : Binary.Format} (negative : Bool) (d : Decimal) : Binary f :=
  if d.coefficient = 0 then zero negative
  else if f.greatest + f.precision ≤ 3 * (d.reach - 1) then infinite negative
  else if 3 * d.reach < f.least then zero negative
  else ofRatio negative d.num d.den

end TemplateExpr
