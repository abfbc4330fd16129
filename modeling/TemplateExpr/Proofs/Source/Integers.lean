-- Integers in a source. A run of digits is one token, whatever zeros it begins with, if the
-- number that it denotes has room in a long, and is rejected as a whole otherwise; the parser
-- makes an int of the number where an int has room for it. Signs are no part of a literal:
-- they negate its value, in the kind that it has without them.
import Mathlib.Data.Nat.Digits.Defs
import TemplateExpr.Proofs.Operation.Integers
import TemplateExpr.Proofs.Printer.Literals
import TemplateExpr.Proofs.Printer.RoundTrip
import TemplateExpr.Source

namespace TemplateExpr

open Pattern Scanner

/-! ## Digits -/

namespace Decimal

/-- One or more digits, and the number that they stand for: the last counts once, and each other ten
times as much as the one after it. -/
structure Denotes (w : String) (n : Nat) : Prop where
  ne_empty : w ≠ ""
  digits : ∀ c ∈ w.toList, c.isDigit = true
  number : n = Nat.ofDigits 10 (w.toList.reverse.map fun c => c.toNat - '0'.toNat)

variable {w : String} {n : Nat}

theorem Denotes.mem_digits (h : Denotes w n) : w.toList ∈ Pattern.digits :=
  mem_digits_of_ne_nil (by simpa using h.ne_empty) h.digits

/-- Reading digits from the left gives them the values of their places. -/
theorem Denotes.ofDigits_eq (h : Denotes w n) : ofDigits w.toList = n := by
  rw [h.number, Nat.ofDigits_eq_foldr, List.foldr_map, List.foldr_reverse, ofDigits]
  congr 1
  funext n c
  exact Nat.add_comm _ _

end Decimal

namespace Scanner

/-! ## Scanning -/

/-- A text that is one piece is one token, or is rejected as a whole. -/
theorem scan_piece {text : List Char} {form : Form} (h : Piece text form)
    (hform : form.isSkipped = false) (offset line : Nat) : scan offset line text =
      match form.read? text with
      | some token => .ok [(token, ⟨offset, offset + bytes text, line⟩)]
      | none => .error (rejected text ⟨offset, offset + bytes text, line⟩) := by
  cases text with
  | nil => exact absurd rfl (ne_nil_of_declared h.declared)
  | cons c cs =>
    have hparted : Parted [] := by simp [Parted]
    have hclass := classify_of_piece h hform hparted
    rw [List.append_nil] at hclass
    rw [scan]
    simp only [hclass, hform, List.take_length, List.drop_length, h.place]
    cases form.read? (c :: cs) with
    | none => rfl
    | some token =>
      simp only [scan]
      rfl

/-- A number is rejected for its range, and on the line that it is on. -/
theorem scan_number {text : List Char} {form : Form} (h : NumberText text form)
    (offset line : Nat) : scan offset line text =
      match form.read? text with
      | some token => .ok [(token, ⟨offset, offset + bytes text, line⟩)]
      | none => .error (.outOfRange (String.ofList text) ⟨offset, offset + bytes text, line⟩) := by
  have hform : form.isSkipped = false := by cases h <;> rfl
  have hdigit : text.head?.any Char.isDigit = true := by
    cases text with
    | nil => exact absurd rfl (ne_nil_of_declared (Piece.number h).declared)
    | cons c cs => exact isDigit_of_number h.mem (List.append_nil _)
  rw [scan_piece (.number h) hform, rejected, if_pos hdigit]

theorem scan_minus (offset line : Nat) (rest : List Char) : scan offset line ('-' :: rest) =
    (scan (offset + 1) line rest).map
      ((.operator .subtract, ⟨offset, offset + 1, line⟩) :: ·) :=
  @scan_of_token '-' rest _ offset line rfl

/-- Minus signs are tokens of their own, and take one byte each. -/
theorem scan_minuses (k offset line : Nat) (rest : List Char) :
    ∃ signs, signs.map Prod.fst = List.replicate k (.operator .subtract) ∧
      scan offset line (List.replicate k '-' ++ rest) =
        (scan (offset + k) line rest).map (signs ++ ·) := by
  induction k generalizing offset with
  | zero =>
    refine ⟨[], rfl, ?_⟩
    rw [List.replicate_zero, List.nil_append, Nat.add_zero]
    cases scan offset line rest <;> rfl
  | succ k ih =>
    obtain ⟨signs, hsigns, hscan⟩ := ih (offset + 1)
    refine ⟨(.operator .subtract, ⟨offset, offset + 1, line⟩) :: signs, ?_, ?_⟩
    · rw [List.map_cons, hsigns, List.replicate_succ]
    · rw [List.replicate_succ, List.cons_append, scan_minus, hscan, Nat.add_right_comm,
        Nat.add_assoc]
      cases scan (offset + (k + 1)) line rest <;> rfl

/-! ## Whole numbers -/

/-- How a source writes a whole number, and the token that this is if the number fits: digits, and
for a long also its letter. -/
inductive Spells : List Char → Nat → (Int64 → Token) → Prop
  | integer {ds} : ds ∈ digits → Spells ds (Decimal.ofDigits ds) .integer
  | long {ds c} : ds ∈ digits → c = 'l' ∨ c = 'L' →
      Spells (ds ++ [c]) (Decimal.ofDigits ds) .long

theorem integer?_eq {ds : List Char} (hds : ds ∈ digits) :
    integer? ds = int64? (Decimal.ofDigits ds) := by
  rw [integer?, Decimal.readInt?_of_whole (.plain hds), Option.bind_some]

theorem Spells.exists_form {text : List Char} {n : Nat} {token : Int64 → Token}
    (h : Spells text n token) :
    ∃ form, NumberText text form ∧ form.read? text = (int64? n).map token := by
  cases h with
  | integer hds => exact ⟨.integer, .integer hds, by rw [Form.read?, integer?_eq hds]⟩
  | long hds hc =>
    exact ⟨.long, .long hds hc, by rw [Form.read?, List.dropLast_concat, integer?_eq hds]⟩

/-- A whole number is one token if a long has room for it, and out of range if not. -/
theorem Spells.scan {text : List Char} {n : Nat} {token : Int64 → Token} (h : Spells text n token)
    (offset line : Nat) : Scanner.scan offset line text =
      match int64? n with
      | some m => .ok [(token m, ⟨offset, offset + bytes text, line⟩)]
      | none => .error (.outOfRange (String.ofList text) ⟨offset, offset + bytes text, line⟩) := by
  obtain ⟨form, hnumber, hread⟩ := h.exists_form
  rw [scan_number hnumber, hread]
  cases int64? n <;> rfl

end Scanner

/-! ## Signs -/

namespace Value

/-- An integer with the other sign, in its own kind. -/
def negated : Value → Value
  | int n => .int (-n)
  | long n => .long (-n)
  | v => v

variable {v : Value} {kind : Kind}

theorem IsWhole.negated {z : Int} (hv : v.IsWhole kind z) (hkind : kind = .int ∨ kind = .long)
    (hz : kind.least < z) : v.negated.IsWhole kind (-z) := by
  obtain ⟨rfl, hinteger⟩ := hv
  cases v with
  | int n =>
    cases hinteger
    exact ⟨rfl, congrArg some (Tree.toInt_neg_int hz)⟩
  | long n =>
    cases hinteger
    exact ⟨rfl, congrArg some (Tree.toInt_neg_long hz)⟩
  | _ => simp [Value.kind] at hkind

/-- Signs in front of a number that is not negative never wrap around. -/
theorem IsWhole.negated_iterate {n : Nat} (hv : v.IsWhole kind n)
    (hkind : kind = .int ∨ kind = .long) (k : Nat) :
    (Value.negated^[k] v).IsWhole kind ((-1) ^ k * n) := by
  have hfits : (n : Int) < -kind.least := by
    have hcommon := fits_common hv.2 kind
    rw [hv.1] at hcommon
    rcases hkind with rfl | rfl <;> exact hcommon.2
  induction k with
  | zero => simpa using hv
  | succ k ih =>
    have hlow : kind.least < (-1) ^ k * n := by
      rcases neg_one_pow_eq_or Int k with h | h <;> rw [h] <;> omega
    rw [Function.iterate_succ_apply', pow_succ', neg_one_mul, neg_mul]
    exact ih.negated hkind hlow

theorem IsWhole.apply_negate {z : Int} (hv : v.IsWhole kind z) (hkind : kind = .int ∨ kind = .long)
    (e : Expr) (span : Span) : UnaryOp.negate.apply e span v = .ok v.negated := by
  obtain ⟨rfl, _⟩ := hv
  cases v with
  | int n => rfl
  | long n => rfl
  | _ => simp [Value.kind] at hkind

end Value

namespace Tree

/-- Minus signs in front of a tree. -/
def negated (k : Nat) (t : Tree) : Tree := (unary .negate)^[k] t

theorem signed_negated {token : Token} {value : Literal} (h : Grammar.Denotes token value)
    (k : Nat) : Grammar.Signed (List.replicate k (.operator .subtract) ++ [token])
      (negated k (.literal value)) := by
  induction k with
  | zero => exact .primary (.literal h)
  | succ k ih =>
    rw [negated, Function.iterate_succ_apply']
    exact @Grammar.Signed.sign .negate _ _ ih

end Tree

/-- Signs and the literal behind them are one expression. -/
theorem Expr.ofTokens_signs {signs : List (Token × Span)} {token : Token} {value : Literal}
    {k : Nat} (hsigns : signs.map Prod.fst = List.replicate k (.operator .subtract))
    (hvalue : Grammar.Denotes token value) (span : Span) :
    ∃ e, ofTokens (signs ++ [(token, span)]) = .ok e ∧
      e.tree = Tree.negated k (.literal value) := by
  apply Parser.ofTokens_of_expression
  rw [List.map_append, hsigns]
  exact Tree.expression_of_signed (Tree.signed_negated hvalue k)

theorem Expr.exists_unary_of_tree {e : Expr} {op : UnaryOp} {t : Tree} (h : e.tree = .unary op t) :
    ∃ operand span, e = .unary op operand span ∧ operand.tree = t := by
  cases e with
  | unary op' operand span =>
    rw [Expr.tree] at h
    obtain ⟨rfl, rfl⟩ := Tree.unary.inj h
    exact ⟨operand, span, rfl, rfl⟩
  | _ => rw [Expr.tree] at h; cases h

namespace Context

variable {σ : Type} (ctx : Context σ)

/-- Minus signs in front of an integer are applied to its value one by one. -/
theorem eval_negated {value : Literal} {n : Nat} {kind : Kind} (hvalue : value.value.IsWhole kind n)
    (hkind : kind = .int ∨ kind = .long) (w : World σ) {k : Nat} {e : Expr}
    (he : e.tree = Tree.negated k (.literal value)) :
    (ctx.eval e).run w = (.ok (Value.negated^[k] value.value), w) := by
  induction k generalizing e with
  | zero =>
    cases e <;> rw [Expr.tree] at he <;> cases he
    rfl
  | succ k ih =>
    rw [Tree.negated, Function.iterate_succ_apply'] at he
    obtain ⟨operand, span, rfl, hoperand⟩ := Expr.exists_unary_of_tree he
    have hwhole := hvalue.negated_iterate hkind k
    rw [eval, Eval.run_bind_ok (ih hoperand), hwhole.apply_negate hkind,
      Function.iterate_succ_apply']
    rfl

end Context

/-! ## Literals -/

/-- Minus signs in front of a source. -/
def minuses (k : Nat) (source : String) : String := String.ofList (List.replicate k '-') ++ source

namespace Literal

/-- The source is a literal of this number and nothing else. Each minus sign in front of it negates
its value, which keeps its kind and never wraps around. -/
structure IsInteger (source : String) (number : Nat) (value : Literal) : Prop where
  parsed : Expr.ofSource source = .ok (.literal value ⟨0, source.utf8ByteSize, 1⟩)
  signed {σ : Type} (ctx : Context σ) (w : World σ) (k : Nat) :
    ctx.evalSource (minuses k source) w = (.ok (Value.negated^[k] value.value), w)
  /-- What the value is after so many signs. -/
  whole (k : Nat) :
    (Value.negated^[k] value.value).IsWhole value.value.kind ((-1) ^ k * number)

/-- The source stands for a number that is too great. It is rejected as a whole, with minus signs in
front of it or without. -/
def IsOutOfRange (source : String) : Prop :=
  ∀ k, Expr.ofSource (minuses k source) =
    .error (.outOfRange source ⟨k, k + source.utf8ByteSize, 1⟩)

variable {text : List Char} {source : String} {n : Nat} {token : Int64 → Token} {m : Int64}
  {value : Literal}

theorem isWhole_of_spells (h : Spells text n token) (hm : m.toInt = n)
    (hvalue : Grammar.Denotes (token m) value) :
    (value.value.kind = .int ∨ value.value.kind = .long) ∧
      value.value.IsWhole value.value.kind n := by
  cases h with
  | integer _ =>
    cases hvalue with
    | int hint => exact ⟨.inl rfl, rfl, congrArg some (hint.trans hm)⟩
    | wide _ => exact ⟨.inr rfl, rfl, congrArg some hm⟩
  | long _ _ =>
    cases hvalue
    exact ⟨.inr rfl, rfl, congrArg some hm⟩

theorem toList_minuses (k : Nat) (source : String) :
    (minuses k source).toList = List.replicate k '-' ++ source.toList := by
  rw [minuses, String.toList_append, String.toList_ofList]

theorem ofSource_minuses (h : Spells source.toList n token) (hm : m.toInt = n)
    (hvalue : Grammar.Denotes (token m) value) (k : Nat) :
    ∃ e, Expr.ofSource (minuses k source) = .ok e ∧ e.tree = Tree.negated k (.literal value) := by
  obtain ⟨signs, hsigns, hscan⟩ := scan_minuses k 0 1 source.toList
  rw [h.scan, int64?_eq_some_iff.2 hm, ← toList_minuses] at hscan
  obtain ⟨e, hparse, he⟩ := Expr.ofTokens_signs hsigns hvalue
    ⟨0 + k, 0 + k + bytes source.toList, 1⟩
  refine ⟨e, ?_, he⟩
  rw [Expr.ofSource, Token.ofSource, hscan]
  exact hparse

/-- A number that fits is read as the literal that its token denotes. -/
theorem isInteger_of_spells (h : Spells source.toList n token) (hm : m.toInt = n)
    (hvalue : Grammar.Denotes (token m) value) : IsInteger source n value := by
  obtain ⟨hkind, hwhole⟩ := isWhole_of_spells h hm hvalue
  refine ⟨?_, ?_, hwhole.negated_iterate hkind⟩
  · have hscan := h.scan 0 1
    rw [int64?_eq_some_iff.2 hm, bytes_eq_utf8ByteSize, String.ofList_toList, Nat.zero_add] at hscan
    exact ofSource_literal hscan (Parser.literal?_of_denotes hvalue)
  · intro σ ctx w k
    obtain ⟨e, hsource, he⟩ := ofSource_minuses h hm hvalue k
    rw [Context.evalSource, hsource]
    simp only [ctx.eval_negated hwhole hkind w he]
    rfl

/-- A number that does not fit is rejected behind any signs. -/
theorem isOutOfRange_of_spells (h : Spells source.toList n token)
    (hn : 9223372036854775807 < n) : IsOutOfRange source := by
  intro k
  have hfits : int64? n = none := if_neg (by omega)
  obtain ⟨signs, _, hscan⟩ := scan_minuses k 0 1 source.toList
  rw [h.scan, hfits, bytes_eq_utf8ByteSize, String.ofList_toList, Nat.zero_add,
    ← toList_minuses] at hscan
  rw [Expr.ofSource, Token.ofSource, hscan]
  rfl

theorem exists_long (hn : n ≤ 9223372036854775807) : ∃ m : Int64, m.toInt = n :=
  ⟨Int64.ofInt n, Int64.toInt_ofInt_of_le (by omega) (by omega)⟩

/-- Digits are an int where an int has room for their number, a long where only a long has, and out
of range elsewhere, whatever zeros they begin with. With the letter of a long behind them they are
a long or out of range. Minus signs in front of a literal negate its value and leave its kind. -/
theorem integers_are_classified_by_their_number (w : String) (n : Nat) (h : Decimal.Denotes w n) :
    (n ≤ 2147483647 → ∃ m : Int32, m.toInt = n ∧ IsInteger w n (.int m)) ∧
    (2147483647 < n → n ≤ 9223372036854775807 →
      ∃ m : Int64, m.toInt = n ∧ IsInteger w n (.long m)) ∧
    (9223372036854775807 < n → IsOutOfRange w) ∧
    ∀ letter, letter = 'l' ∨ letter = 'L' →
      (n ≤ 9223372036854775807 →
        ∃ m : Int64, m.toInt = n ∧ IsInteger (w.push letter) n (.long m)) ∧
      (9223372036854775807 < n → IsOutOfRange (w.push letter)) := by
  have hplain : Spells w.toList n .integer := by
    rw [← h.ofDigits_eq]
    exact .integer h.mem_digits
  have hlettered : ∀ letter, letter = 'l' ∨ letter = 'L' →
      Spells (w.push letter).toList n .long := by
    intro letter hletter
    rw [← h.ofDigits_eq, String.toList_push]
    exact .long h.mem_digits hletter
  refine ⟨?_, ?_, isOutOfRange_of_spells hplain, ?_⟩
  · intro hn
    have hlong : n ≤ 9223372036854775807 := by omega
    obtain ⟨m, hm⟩ := exists_long hlong
    have hint : (Int32.ofInt n).toInt = n := Int32.toInt_ofInt_of_le (by omega) (by omega)
    exact ⟨Int32.ofInt n, hint, isInteger_of_spells hplain hm (.int (hint.trans hm.symm))⟩
  · intro hlow hn
    obtain ⟨m, hm⟩ := exists_long hn
    exact ⟨m, hm, isInteger_of_spells hplain hm (.wide (.inr (by omega)))⟩
  · intro letter hletter
    refine ⟨?_, isOutOfRange_of_spells (hlettered letter hletter)⟩
    intro hn
    obtain ⟨m, hm⟩ := exists_long hn
    exact ⟨m, hm, isInteger_of_spells (hlettered letter hletter) hm .long⟩

/-- The number after the greatest int, with zeros before it, and the number after the greatest
long. -/
theorem the_numbers_after_the_greatest_are_a_long_and_none :
    Decimal.Denotes "002147483648" 2147483648 ∧
      (∃ m : Int64, m.toInt = (2147483648 : Nat) ∧
        IsInteger "002147483648" 2147483648 (.long m)) ∧
      Decimal.Denotes "9223372036854775808" 9223372036854775808 ∧
      IsOutOfRange ("9223372036854775808".push 'L') := by
  have hlong : Decimal.Denotes "002147483648" 2147483648 :=
    ⟨by decide, List.all_eq_true.1 (by decide), by decide⟩
  have hnone : Decimal.Denotes "9223372036854775808" 9223372036854775808 :=
    ⟨by decide, List.all_eq_true.1 (by decide), by decide⟩
  exact ⟨hlong, (integers_are_classified_by_their_number _ _ hlong).2.1 (by decide) (by decide),
    hnone, ((integers_are_classified_by_their_number _ _ hnone).2.2.2 'L' (.inr rfl)).2
      (by decide)⟩

end Literal

end TemplateExpr
