-- Divisions of integers. The quotient is cut off towards zero and the remainder is what that
-- leaves, so the two make up the dividend again. Ints and longs are treated alike: a long in
-- place of an int changes nothing but the kind exactly where the exact number is an int.
import TemplateExpr.Proofs.Operation.Comparison
import TemplateExpr.Proofs.Operation.Integers

namespace TemplateExpr

/-! ## Numbers that fit -/

namespace Kind

variable {kind : Kind} {x : Int}

theorem least_neg (kind : Kind) : kind.least < 0 := by
  cases kind <;> decide

/-- Only the least number divided by minus one leaves the range. -/
theorem Fits.tdiv (hx : kind.Fits x) {y : Int} (hy : y ≠ 0)
    (hleast : ¬ (x = kind.least ∧ y = -1)) : kind.Fits (x.tdiv y) := by
  have hneg := kind.least_neg
  obtain ⟨hle, hlt⟩ := hx
  unfold Fits
  by_cases hunit : y = 1 ∨ y = -1
  · rcases hunit with rfl | rfl
    · rw [Int.tdiv_one]
      exact ⟨hle, hlt⟩
    · rw [Int.tdiv_neg, Int.tdiv_one]
      omega
  · have hhalf : (x.tdiv y).natAbs ≤ x.natAbs / 2 := by
      rw [Int.natAbs_tdiv]
      exact Nat.div_le_div_left (by omega) (by decide)
    omega

/-- A remainder lies between zero and the dividend. -/
theorem tmod_between (x y : Int) :
    0 ≤ x.tmod y ∧ x.tmod y ≤ x ∨ x ≤ x.tmod y ∧ x.tmod y ≤ 0 := by
  have habs : (x.tmod y).natAbs ≤ x.natAbs := by
    rw [Int.natAbs_tmod]
    exact Nat.mod_le _ _
  rcases Int.le_total 0 x with hpos | hneg
  · have hnonneg := Int.tmod_nonneg y hpos
    omega
  · have hnonneg := Int.tmod_nonneg y (Int.neg_nonneg_of_nonpos hneg)
    rw [Int.neg_tmod] at hnonneg
    omega

theorem Fits.tmod (hx : kind.Fits x) (y : Int) : kind.Fits (x.tmod y) := by
  have hneg := kind.least_neg
  have hbetween := tmod_between x y
  unfold Fits at *
  omega

/-- What is left of the dividend without the remainder. -/
theorem Fits.tdiv_mul (hx : kind.Fits x) (y : Int) : kind.Fits (x.tdiv y * y) := by
  have hneg := kind.least_neg
  have hbetween := tmod_between x y
  have hexact := Int.tdiv_mul_add_tmod x y
  unfold Fits at *
  omega

end Kind

namespace Operation

/-! ## The two parts of a division -/

section

variable (c : Coercions) (h : Heap) (kind : Kind) (l r : Value) (x y : Int)

/-- A quotient and a remainder, and the numbers that they are. -/
structure Parts (quotient remainder : Value) (q m : Int) : Prop where
  quotient_yielded : Yields c h .quotient l r quotient
  quotient_isWhole : quotient.IsWhole kind q
  remainder_yielded : Yields c h .remainder l r remainder
  remainder_isWhole : remainder.IsWhole kind m
  /-- The quotient is cut off towards zero. -/
  truncated : q = x.tdiv y
  smaller : m.natAbs < y.natAbs
  sign : m = 0 ∨ m.sign = x.sign
  exact : q * y + m = x
  /-- In expressions, too, the two make up the dividend. -/
  restored : ∃ product sum, Yields c h .multiply quotient r product ∧
    Yields c h .add product remainder sum ∧ sum.IsWhole kind x

/-- What both divisions of two integers do at the kind where these meet. -/
structure DividesExactly : Prop where
  by_zero : y = 0 → ∀ o : Operation, o.op.isDivision = true →
    o.apply c h l r = .error o.divisionByZero
  overflow : x = kind.least → y = -1 → ∀ o : Operation, o.op.isDivision = true →
    o.apply c h l r = .error o.overflow
  parts : y ≠ 0 → ¬ (x = kind.least ∧ y = -1) →
    ∃ quotient remainder q m, Parts c h kind l r x y quotient remainder q m

end

variable (h : Heap) (pattern : String) {l r : Value} {x y : Int}

theorem divides_exactly (hx : l.integer? = some x) (hy : r.integer? = some y)
    (hnot : l.kind ≠ .bool ∨ r.kind ≠ .bool) :
    DividesExactly (.standard h pattern) h (Kind.common l.kind r.kind) l r x y := by
  have hfits := Value.fits_common hx r.kind
  generalize hkind : Kind.common l.kind r.kind = kind at hfits ⊢
  refine ⟨?_, ?_, ?_⟩
  · rintro rfl o hop
    rw [o.apply_integers (BinaryOp.isWhole_of_isDivision hop) h pattern hx hy hnot,
      wholeResult_by_zero hop]
    rfl
  · rintro rfl rfl o hop
    rw [o.apply_integers (BinaryOp.isWhole_of_isDivision hop) h pattern hx hy hnot, hkind,
      wholeResult_overflow hop]
    rfl
  · intro hzero hleast
    have hexact : x.tdiv y * y + x.tmod y = x := Int.tdiv_mul_add_tmod x y
    obtain ⟨quotient, hq, hquotient⟩ := exists_yields .quotient (if_neg hzero) hx hy hnot
      hkind (fun hover => hleast hover.2) (hfits.tdiv hzero hleast) h pattern
    obtain ⟨remainder, hm, hremainder⟩ := exists_yields .remainder (if_neg hzero) hx hy
      hnot hkind (fun hover => hleast hover.2) (hfits.tmod y) h pattern
    -- The quotient is of the kind already, so that the product and the sum are as well.
    obtain ⟨product, hp, hproduct⟩ := exists_yields .multiply rfl hq.2 hy
      (.inl (by simp [hq.1, ← hkind])) (by simp [hq.1, ← hkind]) nofun (hfits.tdiv_mul y) h pattern
    have hback : kind.Fits (x.tdiv y * y + x.tmod y) := by rwa [hexact]
    obtain ⟨sum, hs, hsum⟩ := exists_yields .add rfl hp.2 hm.2
      (.inl (by simp [hp.1, ← hkind])) (by simp [hp.1, hm.1, ← hkind]) nofun hback h pattern
    rw [hexact] at hs
    refine ⟨quotient, remainder, _, _, hquotient, hq, hremainder, hm, rfl, ?_, ?_, hexact,
      product, sum, hproduct, hsum, hs⟩
    · rw [Int.natAbs_tmod]
      exact Nat.mod_lt _ (by omega)
    · rw [Int.sign_tmod]
      split
      · rename_i hdvd
        exact .inl (Int.tmod_eq_zero_of_dvd hdvd)
      · exact .inr rfl

end Operation

/-! ## Longs in place of ints -/

/-- The long of the same number; whatever is no int stays as it is. -/
def Value.widened : Value → Value
  | int n => long n.toInt64
  | v => v

def Outcome.widened : Outcome → Outcome
  | value v => value v.widened
  | newList items => newList items

/-- Two ints of which one at least has been replaced by the long of the same number. -/
def widenings (a b : Int32) : List (Value × Value) :=
  [(.long a.toInt64, .int b), (.int a, .long b.toInt64), (.long a.toInt64, .long b.toInt64)]

/-- What an operator makes of two numbers is an int, if it is a number at all, and this is no
division of the least int by minus one, where ints have neither a quotient nor a remainder. -/
def BinaryOp.StaysInt (op : BinaryOp) (x y : Int) : Prop :=
  (∀ z, op.whole? x y = some z → Kind.int.Fits z) ∧
    ¬ (op.isDivision = true ∧ x = Kind.int.least ∧ y = -1)

theorem BinaryOp.staysInt_of_isComparison {op : BinaryOp} (hop : op.isComparison = true)
    (x y : Int) : op.StaysInt x y := by
  rcases BinaryOp.comparison_cases hop with rfl | rfl | rfl | rfl | rfl | rfl
  all_goals exact ⟨nofun, nofun⟩

theorem isWhole_of_mem_widenings {a b : Int32} {operands : Value × Value}
    (h : operands ∈ widenings a b) :
    operands.1.kind ∈ [.int, .long, .enum] ∧ operands.2.kind ∈ [.int, .long, .enum] ∧
      operands.1.integer? = some a.toInt ∧ operands.2.integer? = some b.toInt ∧
      Kind.common operands.1.kind operands.2.kind = .long := by
  simp only [widenings, List.mem_cons, List.not_mem_nil, or_false] at h
  rcases h with rfl | rfl | rfl <;> simp [Value.kind, Value.integer?, Kind.common]

/-- Whatever an operator makes of two ints is a long. -/
theorem fits_long {op : BinaryOp} {x y z : Int} (hx : Kind.int.Fits x) (hy : Kind.int.Fits y)
    (hz : op.whole? x y = some z) : Kind.long.Fits z := by
  unfold Kind.Fits at *
  simp only [Kind.least] at *
  cases op with
  | add | subtract =>
    cases hz
    omega
  | multiply =>
    cases hz
    have habs : (x * y).natAbs ≤ 2147483648 * 2147483648 := by
      rw [Int.natAbs_mul]
      exact Nat.mul_le_mul (by omega) (by omega)
    omega
  | quotient =>
    have habs := Int.natAbs_tdiv_le_natAbs x y
    simp only [BinaryOp.whole?] at hz
    split at hz <;> cases hz
    omega
  | remainder =>
    have hbetween := Kind.tmod_between x y
    simp only [BinaryOp.whole?] at hz
    split at hz <;> cases hz
    omega
  | _ => cases hz

theorem map_value_eq_iff {x y : Except RuntimeError Value} :
    x.map Outcome.value = (y.map Outcome.value).map Outcome.widened ↔
      x = y.map Value.widened := by
  cases x <;> cases y <;> simp [Except.map, Outcome.widened]

/-- Only a number that is an int survives being wrapped around as one. -/
theorem ofWhole_widened_iff {z : Int} (hz : Kind.long.Fits z) :
    Value.ofWhole .long z = (Value.ofWhole .int z).widened ↔ Kind.int.Fits z := by
  have hlong : (Int64.ofInt z).toInt = z := Int64.toInt_ofInt_of_le hz.1 hz.2
  simp only [Value.ofWhole, Value.widened, Value.long.injEq, ← Int64.toInt_inj,
    Int32.toInt_toInt64, hlong]
  constructor
  · intro hint
    rw [hint]
    exact ⟨Int32.le_toInt _, Int32.toInt_lt _⟩
  · intro hfits
    exact (Int32.toInt_ofInt_of_le hfits.1 hfits.2).symm

namespace Operation

variable (o : Operation)

/-- Longs have the result of the ints exactly if the exact number is an int. -/
theorem wholeResult_widened_iff {x y : Int} (hx : Kind.int.Fits x) (hy : Kind.int.Fits y) :
    o.wholeResult .long x y = (o.wholeResult .int x y).map Value.widened ↔ o.op.StaysInt x y := by
  unfold wholeResult BinaryOp.StaysInt
  cases hz : o.op.whole? x y with
  | none =>
    have hleast : ¬ (o.op.isDivision = true ∧ x = Kind.int.least ∧ y = -1) := by
      rintro ⟨hop, _, rfl⟩
      cases BinaryOp.zero_of_whole?_eq_none hop hz
    simp [hleast, Except.map]
  | some z =>
    have hlong : ¬ (o.op.isDivision = true ∧ x = Kind.long.least ∧ y = -1) := by
      simp only [Kind.Fits, Kind.least] at *
      omega
    by_cases hleast : o.op.isDivision = true ∧ x = Kind.int.least ∧ y = -1
    · simp only [if_neg hlong, if_pos hleast, Except.map]
      constructor
      · intro hequal
        cases hequal
      · intro hstays
        exact absurd hleast hstays.2
    · have hiff := ofWhole_widened_iff (fits_long hx hy hz)
      simp [hlong, hleast, Except.map, hiff]

variable (h : Heap) (pattern : String) {a b : Int32} {operands : Value × Value}

theorem apply_widened_iff_of_isWhole (hop : o.op.isWhole = true)
    (hmem : operands ∈ widenings a b) :
    o.apply (.standard h pattern) h operands.1 operands.2 =
        (o.apply (.standard h pattern) h (.int a) (.int b)).map Outcome.widened ↔
      o.op.StaysInt a.toInt b.toInt := by
  obtain ⟨hl, _, hx, hy, hcommon⟩ := isWhole_of_mem_widenings hmem
  have hnot : operands.1.kind ≠ .bool ∨ operands.2.kind ≠ .bool := by
    refine .inl fun hbool => ?_
    rw [hbool] at hl
    exact absurd hl (by decide)
  have ha : (Value.int a).integer? = some a.toInt := rfl
  have hb : (Value.int b).integer? = some b.toInt := rfl
  rw [o.apply_integers hop h pattern hx hy hnot, hcommon,
    o.apply_integers hop h pattern ha hb (.inl nofun),
    ← o.wholeResult_widened_iff ⟨a.le_toInt, a.toInt_lt⟩ ⟨b.le_toInt, b.toInt_lt⟩]
  exact map_value_eq_iff

theorem apply_compares (hop : o.op.isComparison = true) {l r : Value} {x y : Int}
    (hl : l.kind ∈ [.int, .long, .enum]) (hr : r.kind ∈ [.int, .long, .enum])
    (hx : l.integer? = some x) (hy : r.integer? = some y) :
    o.apply (.standard h pattern) h l r = .ok (.value (.bool (o.op.relates x y))) := by
  have htells := o.apply_tells h pattern l r hop
  rwa [comparison_of_integers h pattern hl hr hx hy, Comparison.answer?_of_compare hop] at htells

/-- The laws of operators on integers. -/
structure IntegersAgree : Prop where
  divides : ∀ (l r : Value) (x y : Int), l.integer? = some x → r.integer? = some y →
    l.kind ≠ .bool ∨ r.kind ≠ .bool →
    DividesExactly (.standard h pattern) h (Kind.common l.kind r.kind) l r x y
  /-- Only the kind of the result changes, and that wherever the exact number is an int. -/
  widens : ∀ o : Operation, o.op.isWhole = true ∨ o.op.isComparison = true →
    ∀ a b : Int32, ∀ operands ∈ widenings a b,
      o.apply (.standard h pattern) h operands.1 operands.2 =
          (o.apply (.standard h pattern) h (.int a) (.int b)).map Outcome.widened ↔
        o.op.StaysInt a.toInt b.toInt

theorem integers_divide_alike_at_both_widths : IntegersAgree h pattern := by
  refine ⟨fun l r x y => divides_exactly h pattern, ?_⟩
  rintro o (hop | hop) a b operands hmem
  · exact o.apply_widened_iff_of_isWhole h pattern hop hmem
  · obtain ⟨hl, hr, hx, hy, _⟩ := isWhole_of_mem_widenings hmem
    have hint : Kind.int ∈ [Kind.int, .long, .enum] := List.mem_cons_self
    have hints : o.apply (.standard h pattern) h (.int a) (.int b) =
        .ok (.value (.bool (o.op.relates a.toInt b.toInt))) :=
      o.apply_compares h pattern hop hint hint rfl rfl
    rw [o.apply_compares h pattern hop hl hr hx hy, hints]
    exact iff_of_true rfl (BinaryOp.staysInt_of_isComparison hop _ _)

/-- Only as an int the least number has no remainder by minus one. -/
example :
    apply ⟨.remainder, default, default⟩ (.standard {} "") {} (.int Int32.minValue) (.int (-1)) =
        .error (overflow ⟨.remainder, default, default⟩) ∧
      apply ⟨.remainder, default, default⟩ (.standard {} "") {} (.int Int32.minValue)
        (.long (-1)) = .ok (.value (.long 0)) :=
  ⟨rfl, rfl⟩

end Operation

end TemplateExpr
