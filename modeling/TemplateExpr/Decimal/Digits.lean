-- Decimal digits: the text of whole numbers, with padding, and reading it back.

namespace TemplateExpr

namespace Decimal

/-- The digits of a number, no leading zeros. -/
def digits (n : Nat) : List Char := Nat.toDigits 10 n

/-- What a run of digits stands for. -/
def ofDigits (cs : List Char) : Nat := cs.foldl (fun n c => 10 * n + (c.toNat - 48)) 0

/-- At least `width` characters, filled up on the left. -/
def padLeft (fill : Char) (width : Nat) (cs : List Char) : List Char :=
  List.replicate (width - cs.length) fill ++ cs

/-- At least `width` digits. -/
def zeroPadded (width n : Nat) : List Char := padLeft '0' width (digits n)

/-- A minus sign where one is needed, then the digits. -/
def intDigits (n : Int) : List Char :=
  if n < 0 then '-' :: digits n.natAbs else digits n.natAbs

/-- At least `width` characters with zeros between the sign and the digits, the sign counted. -/
def zeroPaddedInt (width : Nat) (n : Int) : List Char :=
  if n < 0 then '-' :: zeroPadded (width - 1) n.natAbs else zeroPadded width n.natAbs

def intText (n : Int) : String := String.ofList (intDigits n)

/-- One or more digits and nothing else. -/
def readNat? (cs : List Char) : Option Nat :=
  if cs ≠ [] ∧ cs.all Char.isDigit then some (ofDigits cs) else none

/-- One or more digits after at most one sign. -/
def readInt? : List Char → Option Int
  | '-' :: cs => (readNat? cs).map fun n => -(n : Int)
  | '+' :: cs => (readNat? cs).map fun n => (n : Int)
  | cs => (readNat? cs).map fun n => (n : Int)

end Decimal

end TemplateExpr
