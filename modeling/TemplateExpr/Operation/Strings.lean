-- What operators do when an operand is a text. Both operands are taken as texts, to be
-- joined or compared; a text times an integer is that many copies of it, as long as
-- the copies stay below two gibibytes.
import TemplateExpr.Coercions
import TemplateExpr.Operation
import TemplateExpr.Text.Units

namespace TemplateExpr

namespace Text

/-- How often a count repeats something. -/
def repeatCount (n : Int64) : Nat := n.toInt.toNat

/-- The greatest length in bytes of a repeated text. -/
def maxRepeatedLength : Nat := 2147483647

/-- The length of so many copies of a text, unless it is too long. -/
def repeatedLength? (length count : Nat) : Option Nat :=
  if length * count ≤ maxRepeatedLength then some (length * count) else none

/-- So many copies of a text. -/
def copies (s : String) (count : Nat) : String :=
  if s = "" then "" else String.join (List.replicate count s)

end Text

namespace Operation

/-- The operand that counts copies, if it is an integer. -/
def count? : Value → Option Int64
  | .int n => some n.toInt64
  | .long n => some n
  | _ => none

/-- The right operand counts if it is an integer, and the left one otherwise. -/
def countAndText (left right : Value) : Value × Value :=
  match right with
  | .int _ | .long _ => (right, left)
  | _ => (left, right)

/-- Copies of a text. -/
def repeated (o : Operation) (c : Coercions) (left right : Value) : Except RuntimeError Value :=
  match count? (countAndText left right).1 with
  | none => .error o.notRepeatable
  | some n =>
    let text := c.text o.span (countAndText left right).2
    match Text.repeatedLength? text.utf8ByteSize (Text.repeatCount n) with
    | some _ => .ok (.string (Text.copies text (Text.repeatCount n)))
    | none => .error o.overflow

def onStrings (o : Operation) (c : Coercions) (left right : Value) : Except RuntimeError Value :=
  match o.op with
  | .add => .ok (.string (c.text o.span left ++ c.text o.span right))
  | .multiply => o.repeated c left right
  | op =>
    if op.isComparison then
      .ok (.bool (op.holds (some (Text.ordinal (c.text o.span left) (c.text o.span right)))))
    else .error (o.unsupportedOperator left.kind right.kind)

end Operation

end TemplateExpr
