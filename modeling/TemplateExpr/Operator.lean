-- The operators of expressions: their symbols, how tightly they bind, and the two
-- groups that decide how operands are treated.

namespace TemplateExpr

/-- Operators between two operands. `quotient` drops the fraction, `through` includes the end of
a range and `below` does not, `append` and `prepend` add one item to a sequence. -/
inductive BinaryOp where
  | add | subtract | multiply | divide | quotient | remainder
  | equal | notEqual | greater | less | greaterEqual | lessEqual
  | through | below
  | and | or | coalesce
  | append | prepend
deriving DecidableEq, Repr

namespace BinaryOp

def all : List BinaryOp :=
  [add, subtract, multiply, divide, quotient, remainder, equal, notEqual, greater, less,
    greaterEqual, lessEqual, through, below, and, or, coalesce, append, prepend]

def symbol : BinaryOp → String
  | add => "+"
  | subtract => "-"
  | multiply => "*"
  | divide => "/"
  | quotient => "//"
  | remainder => "%"
  | equal => "=="
  | notEqual => "!="
  | greater => ">"
  | less => "<"
  | greaterEqual => ">="
  | lessEqual => "<="
  | through => ".."
  | below => "..<"
  | and => "&&"
  | or => "||"
  | coalesce => "??"
  | append => "<<"
  | prepend => ">>"

/-- Operators of a higher level bind their operands first; those of one level from left to right. -/
def level : BinaryOp → Nat
  | coalesce => 1
  | or => 2
  | and => 3
  | equal | notEqual => 4
  | greater | less | greaterEqual | lessEqual => 5
  | append | prepend => 6
  | through | below => 7
  | add | subtract => 8
  | multiply | divide | quotient | remainder => 9

def isComparison : BinaryOp → Bool
  | equal | notEqual | greater | less | greaterEqual | lessEqual => true
  | _ => false

/-- Comparisons, arithmetic and ranges: what is done to texts or to promoted operands. -/
def isCalculation : BinaryOp → Bool
  | and | or | coalesce | append | prepend => false
  | _ => true

theorem mem_all (op : BinaryOp) : op ∈ all := by cases op <;> decide

theorem isCalculation_of_isComparison {op : BinaryOp} (h : op.isComparison = true) :
    op.isCalculation = true := by
  cases op <;> first | rfl | cases h

end BinaryOp

/-- Operators in front of their operand. -/
inductive UnaryOp where
  | negate
  | not
deriving DecidableEq, Repr

namespace UnaryOp

def symbol : UnaryOp → String
  | negate => "-"
  | not => "!"

end UnaryOp

end TemplateExpr
