-- Arithmetic and comparison of floating-point numbers. Finite operands are
-- computed exactly and rounded once; the other cases are the usual rules for
-- infinities, zeros and NaN.
import TemplateExpr.Binary.Rounding

namespace TemplateExpr

namespace Binary

variable {f : Format}

/-- A significand counted in units of `2 ^ unit`, for a unit no larger than its own. -/
def rescale (negative : Bool) (m : Nat) (e unit : Int) : Int :=
  signed negative (m * twoPow (e - unit).toNat)

def neg : Binary f → Binary f
  | nan => nan
  | infinite negative => infinite (!negative)
  | finite negative m e h => finite (!negative) m e h

/-- A sum that is exactly zero is positive unless both operands are negative. -/
def add : Binary f → Binary f → Binary f
  | nan, _ => nan
  | _, nan => nan
  | infinite a, infinite b => if a = b then infinite a else nan
  | infinite a, finite _ _ _ _ => infinite a
  | finite _ _ _ _, infinite b => infinite b
  | finite a m e _, finite b n g _ =>
    let unit := min e g
    let sum := rescale a m e unit + rescale b n g unit
    if sum = 0 then zero (a && b) else ofScaled (decide (sum < 0)) sum.natAbs unit

def sub (x y : Binary f) : Binary f := add x (neg y)

def mul : Binary f → Binary f → Binary f
  | nan, _ => nan
  | _, nan => nan
  | infinite a, infinite b => infinite (a != b)
  | infinite a, finite b n _ _ => if n = 0 then nan else infinite (a != b)
  | finite a m _ _, infinite b => if m = 0 then nan else infinite (a != b)
  | finite a m e _, finite b n g _ => ofScaled (a != b) (m * n) (e + g)

def div : Binary f → Binary f → Binary f
  | nan, _ => nan
  | _, nan => nan
  | infinite _, infinite _ => nan
  | infinite a, finite b _ _ _ => infinite (a != b)
  | finite a _ _ _, infinite b => zero (a != b)
  | finite a m e _, finite b n g _ =>
    if n = 0 then (if m = 0 then nan else infinite (a != b))
    else ofRatio (a != b) (m * twoPow (e - g).toNat) (n * twoPow (g - e).toNat)

/-- The remainder of the quotient cut off toward zero: exact, and signed as the dividend. -/
def rem : Binary f → Binary f → Binary f
  | nan, _ => nan
  | _, nan => nan
  | infinite _, _ => nan
  | finite a m e h, infinite _ => finite a m e h
  | finite a m e _, finite _ n g _ =>
    if n = 0 then nan
    else
      let unit := min e g
      ofScaled a (m * twoPow (e - unit).toNat % (n * twoPow (g - unit).toNat)) unit

/-- The order of two numbers; a NaN has none, and the two zeros are equal. -/
def compare? : Binary f → Binary f → Option Ordering
  | nan, _ => none
  | _, nan => none
  | infinite a, infinite b => some (if a = b then .eq else if a then .lt else .gt)
  | infinite a, finite _ _ _ _ => some (if a then .lt else .gt)
  | finite _ _ _ _, infinite b => some (if b then .gt else .lt)
  | finite a m e _, finite b n g _ =>
    let unit := min e g
    some (compare (rescale a m e unit) (rescale b n g unit))

/-- Equality of numbers, under which a NaN differs from itself. -/
def same (x y : Binary f) : Bool := compare? x y == some .eq

def lt (x y : Binary f) : Bool := compare? x y == some .lt

def le (x y : Binary f) : Bool := lt x y || same x y

end Binary

end TemplateExpr
