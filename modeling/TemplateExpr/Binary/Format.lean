-- Binary floating-point numbers of a given width, as data: a sign, a whole
-- significand and the power of two of its last place. The proof field keeps one
-- representation per number, so two numbers are the same datum iff they have the
-- same bits, apart from the one NaN.

namespace TemplateExpr

/-- `2 ^ k`. -/
def Binary.twoPow (k : Nat) : Nat := Nat.pow 2 k

/-- The width of a significand in bits, and the powers of two its last place may have. -/
structure Binary.Format where
  precision : Nat
  least : Int
  greatest : Int
deriving DecidableEq

namespace Binary.Format

/-- Full significands everywhere, except at the least exponent, where any will do. -/
def Canonical (f : Format) (significand : Nat) (exponent : Int) : Prop :=
  significand < twoPow f.precision ∧ f.least ≤ exponent ∧ exponent ≤ f.greatest ∧
    (twoPow (f.precision - 1) ≤ significand ∨ exponent = f.least)

instance (f : Format) (m : Nat) (e : Int) : Decidable (f.Canonical m e) :=
  inferInstanceAs (Decidable (_ ∧ _ ∧ _ ∧ _))

/-- Numbers of 32 bits. -/
def single : Format := ⟨24, -149, 104⟩

/-- Numbers of 64 bits. -/
def double : Format := ⟨53, -1074, 971⟩

end Binary.Format

/-- A number `± significand * 2 ^ exponent`, an infinity, or the result of no number. -/
inductive Binary (f : Binary.Format) where
  | nan
  | infinite (negative : Bool)
  | finite (negative : Bool) (significand : Nat) (exponent : Int)
      (canonical : f.Canonical significand exponent)
deriving DecidableEq

abbrev Single := Binary .single

abbrev Double := Binary .double

namespace Binary

variable {f : Format}

/-- A magnitude with its sign. -/
def signed (negative : Bool) (magnitude : Nat) : Int :=
  if negative then -(magnitude : Int) else magnitude

def isNaN : Binary f → Bool
  | nan => true
  | _ => false

/-- Neither zero has a significand. -/
def isZero : Binary f → Bool
  | finite _ m _ _ => m == 0
  | _ => false

/-- The number with these parts, or an infinity where the format has no such number. -/
def ofParts (negative : Bool) (significand : Nat) (exponent : Int) : Binary f :=
  if h : f.Canonical significand exponent then finite negative significand exponent h
  else infinite negative

def zero (negative : Bool) : Binary f := ofParts negative 0 f.least

/-! ## Bit patterns -/

/-- The count of exponent fields of a format, the two reserved ones included. -/
def Format.fields (f : Format) : Nat := (f.greatest - f.least + 3).toNat

/-- The weight of the sign bit. -/
def Format.signWeight (f : Format) : Nat := f.fields * twoPow (f.precision - 1)

/-- The pattern of a number: sign, exponent field, and the significand less its leading bit. -/
def toBits : Binary f → Nat
  | nan => (f.fields - 1) * twoPow (f.precision - 1) + twoPow (f.precision - 2)
  | infinite negative =>
    (if negative then f.signWeight else 0) + (f.fields - 1) * twoPow (f.precision - 1)
  | finite negative m e _ =>
    (if negative then f.signWeight else 0) +
      (if m < twoPow (f.precision - 1) then m
       else (e - f.least).toNat * twoPow (f.precision - 1) + m)

/-- The number of a pattern; every pattern of a NaN gives the one NaN. -/
def ofBits (bits : Nat) : Binary f :=
  let negative := bits / f.signWeight % 2 == 1
  let field := bits % f.signWeight / twoPow (f.precision - 1)
  let fraction := bits % twoPow (f.precision - 1)
  if field = f.fields - 1 then (if fraction = 0 then infinite negative else nan)
  else if field = 0 then ofParts negative fraction f.least
  else ofParts negative (twoPow (f.precision - 1) + fraction) (f.least + field - 1)

end Binary

end TemplateExpr
