-- From floating-point numbers to whole ones. A number is rounded or cut off to a whole
-- number of its own format, held against the limits of the range as such a number, and
-- only then cast. The cast alone would saturate; between the limits it is exact.
import TemplateExpr.Binary.Arithmetic

namespace TemplateExpr

/-- A whole number as one of 32 bits, where it fits. -/
def int32? (n : Int) : Option Int32 :=
  if -2147483648 ≤ n ∧ n ≤ 2147483647 then some (Int32.ofInt n) else none

/-- A whole number as one of 64 bits, where it fits. -/
def int64? (n : Int) : Option Int64 :=
  if -9223372036854775808 ≤ n ∧ n ≤ 9223372036854775807 then some (Int64.ofInt n) else none

theorem int32?_toInt (n : Int32) : int32? n.toInt = some n := by
  have h : -2147483648 ≤ n.toInt ∧ n.toInt ≤ 2147483647 :=
    ⟨n.le_toInt, Int.le_of_lt_add_one n.toInt_lt⟩
  rw [int32?, if_pos h, Int32.ofInt_toInt]

theorem int64?_toInt (n : Int64) : int64? n.toInt = some n := by
  have h : -9223372036854775808 ≤ n.toInt ∧ n.toInt ≤ 9223372036854775807 :=
    ⟨n.le_toInt, Int.le_of_lt_add_one n.toInt_lt⟩
  rw [int64?, if_pos h, Int64.ofInt_toInt]

theorem int32?_eq_some_iff {k : Int} {n : Int32} : int32? k = some n ↔ n.toInt = k := by
  constructor
  · intro h
    unfold int32? at h
    split at h
    · rename_i hk
      cases h
      exact Int32.toInt_ofInt_of_le hk.1 (by omega)
    · cases h
  · rintro rfl
    exact int32?_toInt n

theorem int64?_eq_some_iff {k : Int} {n : Int64} : int64? k = some n ↔ n.toInt = k := by
  constructor
  · intro h
    unfold int64? at h
    split at h
    · rename_i hk
      cases h
      exact Int64.toInt_ofInt_of_le hk.1 (by omega)
    · cases h
  · rintro rfl
    exact int64?_toInt n

namespace Binary

variable {f : Format}

/-- The whole number that a rule for quotients gives, as a number of the format; a zero keeps
the sign, and what is not finite stays as it is. -/
def toWhole (quotient : Nat → Nat → Nat) : Binary f → Binary f
  | finite negative m e _ =>
    ofRatio negative (quotient (m * twoPow e.toNat) (twoPow (-e).toNat)) 1
  | x => x

/-- The nearest whole number, a half going to the even one. -/
def roundTiesEven (x : Binary f) : Binary f := x.toWhole roundQuotient

/-- The whole number left after cutting the fraction off. -/
def trunc (x : Binary f) : Binary f := x.toWhole fun a b => a / b

/-- The cast to an integer: cut off, or the nearer limit where that is too large or too small.
A NaN becomes zero. -/
def saturated (low high : Int) : Binary f → Int
  | nan => 0
  | infinite negative => if negative then low else high
  | finite negative m e _ =>
    max low (min high (signed negative (m * twoPow e.toNat / twoPow (-e).toNat)))

end Binary

namespace Double

/-- Cast to 32 bits, except what lies outside the limits of the range. -/
def toInt32? (x : Double) : Option Int32 :=
  if x.isNaN || x.lt (.ofInt Int32.minValue.toInt) || Binary.lt (.ofInt Int32.maxValue.toInt) x
  then none
  else some (Int32.ofInt (x.saturated Int32.minValue.toInt Int32.maxValue.toInt))

/-- The least number above the range of 64 bits: unlike the greatest one in it, a double. -/
def aboveInt64 : Double := .ofInt 9223372036854775808

/-- Cast to 64 bits, except what lies outside the range. -/
def toInt64? (x : Double) : Option Int64 :=
  if x.isNaN || x.lt aboveInt64.neg || aboveInt64.le x then none
  else some (Int64.ofInt (x.saturated Int64.minValue.toInt Int64.maxValue.toInt))

def roundToInt32? (x : Double) : Option Int32 := toInt32? x.roundTiesEven

def roundToInt64? (x : Double) : Option Int64 := toInt64? x.roundTiesEven

/-- What a 32-bit cast gives for a number that has no 32-bit value. -/
def indefinite : Int32 := -2147483648

/-- The fraction cut off by way of a 32-bit integer, whose range limits what survives. -/
def truncateThroughInt32 (x : Double) : Double :=
  .ofInt ((toInt32? x.trunc).getD indefinite).toInt

end Double

end TemplateExpr
