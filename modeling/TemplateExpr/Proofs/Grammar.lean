-- The grammar of expressions: which tokens spell which tree. Nine levels of binary
-- operators stand under the signs, and the signs under the primaries. A tree has no
-- places, so the grammar does not depend on where the tokens stand.
import TemplateExpr.Expr
import TemplateExpr.Token

namespace TemplateExpr

/-! ## Trees -/

/-- An expression apart from the places of its nodes. -/
inductive Tree where
  | literal (value : Literal)
  | named (name : String)
  | unary (op : UnaryOp) (operand : Tree)
  | binary (op : BinaryOp) (left right : Tree)
  | call (name : String) (arguments : List Tree)
  | list (items : List Tree)

namespace Expr

mutual

/-- The expression apart from the places of its nodes. -/
def tree : Expr → Tree
  | literal value _ => .literal value
  | named name _ => .named name
  | unary op e _ => .unary op e.tree
  | binary op l r => .binary op l.tree r.tree
  | call name arguments _ => .call name (treeAll arguments)
  | list items _ => .list (treeAll items)

def treeAll : List Expr → List Tree
  | [] => []
  | e :: es => e.tree :: treeAll es

end

theorem treeAll_eq_map (es : List Expr) : treeAll es = es.map tree := by
  induction es with
  | nil => rfl
  | cons e es ih => rw [treeAll, ih, List.map_cons]

end Expr

namespace Grammar

/-! ## Rules -/

/-- The literal that a token denotes. Integers denote ints where they fit and longs elsewhere. -/
inductive Denotes : Token → Literal → Prop
  | null : Denotes .null .null
  | bool {b : Bool} : Denotes (.bool b) (.bool b)
  | int {n : Int64} {m : Int32} : m.toInt = n.toInt → Denotes (.integer n) (.int m)
  | wide {n : Int64} : n.toInt < -2147483648 ∨ 2147483647 < n.toInt →
      Denotes (.integer n) (.long n)
  | long {n : Int64} : Denotes (.long n) (.long n)
  | float {x : Single} : Denotes (.float x) (.float x)
  | double {x : Double} : Denotes (.double x) (.double x)
  | string {s : String} : Denotes (.string s) (.string s)

/-- The binary operators of each level, those that bind least tightly first. -/
def operators : Nat → List BinaryOp
  | 1 => [.coalesce]
  | 2 => [.or]
  | 3 => [.and]
  | 4 => [.equal, .notEqual]
  | 5 => [.less, .greater, .lessEqual, .greaterEqual]
  | 6 => [.append, .prepend]
  | 7 => [.through, .below]
  | 8 => [.add, .subtract]
  | 9 => [.multiply, .divide, .quotient, .remainder]
  | _ => []

/-- The token of an operator in front of its operand. -/
def signToken : UnaryOp → Token
  | .negate => .operator .subtract
  | .not => .bang

mutual

/-- Tokens that spell a tree on a level: `operand (op operand)*` with operands of the level above,
or, above the nine binary levels, a primary after its signs. -/
inductive Phrase : Nat → List Token → Tree → Prop
  | chain {level ts us first t} : level ≤ 9 → Phrase (level + 1) ts first →
      Tail level first us t → Phrase level (ts ++ us) t
  | signed {ts t} : Signed ts t → Phrase 10 ts t

/-- The `(op operand)*` after a first operand. Each operator takes what was spelled before it as its
left operand. -/
inductive Tail : Nat → Tree → List Token → Tree → Prop
  | nil {level t} : Tail level t [] t
  | cons {level left op ts us right t} : op ∈ operators level → Phrase (level + 1) ts right →
      Tail level (.binary op left right) us t → Tail level left (.operator op :: (ts ++ us)) t

/-- Any number of signs, then a primary. -/
inductive Signed : List Token → Tree → Prop
  | sign {op ts t} : Signed ts t → Signed (signToken op :: ts) (.unary op t)
  | primary {ts t} : Primary ts t → Signed ts t

/-- A literal, a name, a call, a list, or an expression in parentheses. -/
inductive Primary : List Token → Tree → Prop
  | literal {token value} : Denotes token value → Primary [token] (.literal value)
  | named {name} : Primary [.identifier name] (.named name)
  | call {name ts arguments} : Items ts arguments →
      Primary (.identifier name :: .opening .round :: (ts ++ [.closing .round]))
        (.call name arguments)
  | list {ts items} : Items ts items →
      Primary (.opening .square :: (ts ++ [.closing .square])) (.list items)
  | group {ts t} : Phrase 1 ts t → Primary (.opening .round :: (ts ++ [.closing .round])) t

/-- Nothing, or expressions with commas between them. -/
inductive Items : List Token → List Tree → Prop
  | nil : Items [] []
  | cons {ts us t rest} : Phrase 1 ts t → MoreItems us rest → Items (ts ++ us) (t :: rest)

/-- Expressions with a comma before each. -/
inductive MoreItems : List Token → List Tree → Prop
  | nil : MoreItems [] []
  | cons {ts us t rest} : Phrase 1 ts t → MoreItems us rest →
      MoreItems (.comma :: (ts ++ us)) (t :: rest)

end

/-- Tokens that spell an expression. -/
def Expression (ts : List Token) (t : Tree) : Prop := Phrase 1 ts t

/-! ## Levels -/

theorem mem_operators (op : BinaryOp) (level : Nat) : op ∈ operators level ↔ op.level = level := by
  constructor
  · intro h
    unfold operators at h
    split at h <;> cases op <;> first | rfl | exact absurd h (by decide)
  · intro h
    subst h
    cases op <;> decide

theorem level_pos (op : BinaryOp) : 1 ≤ op.level := by cases op <;> decide

theorem level_le (op : BinaryOp) : op.level ≤ 9 := by cases op <;> decide

namespace Phrase

theorem level_le_ten {level : Nat} {ts : List Token} {t : Tree} (h : Phrase level ts t) :
    level ≤ 10 := by
  cases h with
  | chain hl => exact Nat.le_succ_of_le hl
  | signed => exact Nat.le_refl 10

/-- An operand alone is a chain of the level below. -/
theorem lower {level : Nat} {ts : List Token} {t : Tree} (h : Phrase (level + 1) ts t) :
    Phrase level ts t := by
  have hl : level ≤ 9 := Nat.le_of_succ_le_succ h.level_le_ten
  simpa using Phrase.chain hl h Tail.nil

theorem of_le {low high : Nat} {ts : List Token} {t : Tree} (hl : low ≤ high)
    (h : Phrase high ts t) : Phrase low ts t := by
  induction hl with
  | refl => exact h
  | step _ ih => exact ih h.lower

end Phrase

theorem Tail.snoc {level : Nat} {op : BinaryOp} {first l r : Tree} {us ts : List Token}
    (h : Tail level first us l) (hop : op ∈ operators level) (hr : Phrase (level + 1) ts r) :
    Tail level first (us ++ .operator op :: ts) (.binary op l r) := by
  match h with
  | .nil => simpa using Tail.cons hop hr Tail.nil
  | .cons hop' hr' h' => simpa using Tail.cons hop' hr' (h'.snoc hop hr)

/-- A chain with one more operator and operand at its end. -/
theorem Phrase.binary {op : BinaryOp} {l r : Tree} {us ts : List Token}
    (hl : Phrase op.level us l) (hr : Phrase (op.level + 1) ts r) :
    Phrase op.level (us ++ .operator op :: ts) (.binary op l r) := by
  have hop : op ∈ operators op.level := (mem_operators op op.level).2 rfl
  have hle := level_le op
  generalize op.level = level at *
  cases hl with
  | chain _ hfirst htail => simpa using Phrase.chain hle hfirst (htail.snoc hop hr)
  | signed => omega

end Grammar

end TemplateExpr
