-- The text of a tree and the tokens it is scanned as. Parentheses and spaces keep the
-- pieces of a text apart, so each token of the tree is one piece, and the tokens spell
-- the tree.
import TemplateExpr.Expr.Printer
import TemplateExpr.Proofs.Grammar
import TemplateExpr.Proofs.Scanner.Pieces

namespace TemplateExpr

namespace Tree

/-! ## Texts -/

def isBinary : Tree → Bool
  | binary .. => true
  | _ => false

def enclosed (t : Tree) (text : String) : String := if t.isBinary then "(" ++ text ++ ")" else text

mutual

def text : Tree → String
  | literal value => value.text
  | named name => name
  | unary op t => op.symbol ++ t.enclosed t.text
  | binary op l r => l.enclosed l.text ++ " " ++ op.symbol ++ " " ++ r.enclosed r.text
  | call name arguments => name ++ "(" ++ textAll arguments ++ ")"
  | list items => "[" ++ textAll items ++ "]"

def textAll : List Tree → String
  | [] => ""
  | [t] => t.text
  | t :: ts => t.text ++ ", " ++ textAll ts

end

theorem textAll_cons_cons (t u : Tree) (ts : List Tree) :
    textAll (t :: u :: ts) = t.text ++ ", " ++ textAll (u :: ts) := by
  rw [textAll]
  simp

theorem enclosed_tree (e : Expr) (text : String) : e.tree.enclosed text = e.enclosed text := by
  cases e <;> rw [Expr.tree] <;> rfl

mutual

/-- Texts do not depend on places. -/
theorem text_tree : (e : Expr) → e.tree.text = e.text
  | .literal _ _ => rfl
  | .named _ _ => rfl
  | .unary op e _ => by rw [Expr.tree, text, Expr.text, text_tree e, enclosed_tree]
  | .binary op l r => by
    rw [Expr.tree, text, Expr.text, text_tree l, text_tree r, enclosed_tree, enclosed_tree]
  | .call name arguments _ => by rw [Expr.tree, text, Expr.text, textAll_treeAll arguments]
  | .list items _ => by rw [Expr.tree, text, Expr.text, textAll_treeAll items]

theorem textAll_treeAll : (es : List Expr) → textAll (Expr.treeAll es) = Expr.textAll es
  | [] => rfl
  | [e] => by rw [Expr.treeAll, Expr.treeAll, textAll, Expr.textAll, text_tree e]
  | e :: f :: es => by
    have hrest := textAll_treeAll (f :: es)
    rw [Expr.treeAll] at hrest ⊢
    rw [Expr.treeAll, textAll_cons_cons, Expr.textAll, hrest, text_tree e]
    simp

end

/-! ## Tokens -/

/-- The token of a literal that is not negative. -/
def literalToken : Literal → Token
  | .null => .null
  | .bool b => .bool b
  | .int n => .integer n.toInt64
  | .long n => .long n
  | .float x => .float x
  | .double x => .double x
  | .string s => .string s

/-- The tokens of an operand, in parentheses where it has to be. -/
def enclosedTokens (t : Tree) (ts : List Token) : List Token :=
  if t.isBinary then .opening .round :: (ts ++ [.closing .round]) else ts

mutual

def tokens : Tree → List Token
  | literal value => [literalToken value]
  | named name => [.identifier name]
  | unary op t => Grammar.signToken op :: t.enclosedTokens t.tokens
  | binary op l r => l.enclosedTokens l.tokens ++ .operator op :: r.enclosedTokens r.tokens
  | call name arguments =>
    .identifier name :: .opening .round :: (tokensAll arguments ++ [.closing .round])
  | list items => .opening .square :: (tokensAll items ++ [.closing .square])

def tokensAll : List Tree → List Token
  | [] => []
  | [t] => t.tokens
  | t :: ts => t.tokens ++ .comma :: tokensAll ts

end

theorem tokensAll_cons_cons (t u : Tree) (ts : List Tree) :
    tokensAll (t :: u :: ts) = t.tokens ++ .comma :: tokensAll (u :: ts) := by
  rw [tokensAll]
  simp

/-- A letter or an underscore, then any number of letters, digits and underscores, and no word of
the language. -/
def IsName (name : String) : Prop :=
  (∃ c cs, name.toList = c :: cs ∧ (c.isAlpha = true ∨ c = '_') ∧
    ∀ d ∈ cs, d.isAlphanum = true ∨ d = '_') ∧
  name ∉ ["true", "false", "null", "and", "or"]

/-- Null, truth values, texts, and integers that are not negative. -/
inductive PlainLiteral : Literal → Prop
  | null : PlainLiteral .null
  | bool {b : Bool} : PlainLiteral (.bool b)
  | int {n : Int32} : 0 ≤ n.toInt → PlainLiteral (.int n)
  | long {n : Int64} : 0 ≤ n.toInt → PlainLiteral (.long n)
  | string {s : String} : PlainLiteral (.string s)

/-- Trees of names and of literals of some class. -/
inductive Written (p : Literal → Prop) : Tree → Prop
  | literal {value} : p value → Written p (literal value)
  | named {name} : IsName name → Written p (named name)
  | unary {op t} : Written p t → Written p (unary op t)
  | binary {op l r} : Written p l → Written p r → Written p (binary op l r)
  | call {name arguments} : IsName name → (∀ t ∈ arguments, Written p t) →
      Written p (call name arguments)
  | list {items} : (∀ t ∈ items, Written p t) → Written p (list items)

/-! ## The tokens spell the tree -/

open Grammar

theorem denotes_literalToken {value : Literal} (h : PlainLiteral value) :
    Denotes (literalToken value) value := by
  cases h with
  | int hn => exact .int (Int32.toInt_toInt64 _).symm
  | _ => constructor

theorem moreItems_tokensAll {t : Tree} {ts : List Tree}
    (h : ∀ u ∈ t :: ts, Expression u.tokens u) : Items (tokensAll (t :: ts)) (t :: ts) ∧
      MoreItems (.comma :: tokensAll (t :: ts)) (t :: ts) := by
  induction ts generalizing t with
  | nil =>
    have ht := h t List.mem_cons_self
    rw [tokensAll]
    refine ⟨?_, ?_⟩
    · simpa using Items.cons ht .nil
    · simpa using MoreItems.cons ht .nil
  | cons u us ih =>
    have ht := h t List.mem_cons_self
    have hrest := (ih fun v hv => h v (List.mem_cons_of_mem t hv)).2
    rw [tokensAll_cons_cons]
    exact ⟨.cons ht hrest, .cons ht hrest⟩

theorem items_tokensAll {ts : List Tree} (h : ∀ t ∈ ts, Expression t.tokens t) :
    Items (tokensAll ts) ts := by
  cases ts with
  | nil => exact .nil
  | cons t ts => exact (moreItems_tokensAll h).1

theorem expression_of_signed {ts : List Token} {t : Tree} (h : Signed ts t) : Expression ts t :=
  Phrase.of_le (by omega) (.signed h)

theorem signed_tokens {t : Tree} (h : Written PlainLiteral t) :
    Expression t.tokens t ∧ Signed (t.enclosedTokens t.tokens) t := by
  induction h with
  | literal hvalue =>
    have hsigned : Signed _ _ := .primary (.literal (denotes_literalToken hvalue))
    exact ⟨expression_of_signed hsigned, hsigned⟩
  | named =>
    exact ⟨expression_of_signed (.primary .named), .primary .named⟩
  | @unary op t _ ih =>
    have hsigned : Signed _ (.unary op t) := .sign ih.2
    exact ⟨expression_of_signed hsigned, hsigned⟩
  | @binary op l r _ _ ihl ihr =>
    have hle := level_le op
    have hl : Phrase op.level _ l := Phrase.of_le (by omega) (.signed ihl.2)
    have hr : Phrase (op.level + 1) _ r := Phrase.of_le (by omega) (.signed ihr.2)
    have hbinary : Expression _ _ := Phrase.of_le (level_pos op) (Phrase.binary hl hr)
    exact ⟨hbinary, .primary (.group hbinary)⟩
  | @call name arguments _ _ ih =>
    have hitems := items_tokensAll fun t ht => (ih t ht).1
    have hsigned : Signed _ (.call name arguments) := .primary (.call hitems)
    exact ⟨expression_of_signed hsigned, hsigned⟩
  | @list items _ ih =>
    have hitems := items_tokensAll fun t ht => (ih t ht).1
    have hsigned : Signed _ (.list items) := .primary (.list hitems)
    exact ⟨expression_of_signed hsigned, hsigned⟩

end Tree

end TemplateExpr
