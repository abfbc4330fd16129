-- The rational number that a finite floating-point number is. A ratio that is such a number is
-- rounded to it, so whole numbers that are not too wide, and all numbers of a narrower format,
-- are converted exactly; and numbers are compared as what they are.
import TemplateExpr.Binary.Arithmetic
import TemplateExpr.Proofs.Decimal.Nearest

namespace TemplateExpr

namespace Binary

variable {f : Format} {x y z : Binary f} {p q : ℚ} {n : ℤ}

def value? : Binary f → Option ℚ
  | finite negative m e _ => some (signed negative m * 2 ^ e)
  | _ => none

/-- The number is this whole one, and not the zero with a sign. -/
def Is (x : Binary f) (n : ℤ) : Prop := x.value? = some (n : ℚ) ∧ x ≠ zero true

theorem value?_finite (negative : Bool) {m : Nat} {e : ℤ} (h : f.Canonical m e) :
    (finite negative m e h).value? = some (if negative then -(m * 2 ^ e : ℚ) else m * 2 ^ e) := by
  cases negative <;> simp [value?, signed]

theorem isZero_iff : x.isZero = true ↔ x.value? = some 0 := by
  cases x with
  | finite negative m e h =>
    have hunit : (2 : ℚ) ^ e ≠ 0 := by positivity
    rw [value?_finite]
    cases negative <;> simp [isZero, hunit]
  | nan | infinite => simp [isZero, value?]

theorem Is.isZero (h : x.Is n) : x.isZero = (n == 0) := by
  rw [Bool.eq_iff_iff, isZero_iff, h.1, beq_iff_eq]
  simp

theorem value?_neg (hx : x.value? = some q) : x.neg.value? = some (-q) := by
  cases x with
  | finite negative m e h =>
    rw [value?_finite, Option.some.injEq] at hx
    rw [neg, value?_finite, ← hx]
    cases negative <;> simp
  | nan | infinite => cases hx

theorem isNaN_of_value? (hx : x.value? = some q) : x.isNaN = false := by
  cases x with
  | finite | infinite => rfl
  | nan => cases hx

/-! ## What a format has exactly -/

/-- Last places finer than this power of two, and some coarser one, belong to the format. -/
structure Format.HoldsUnit (f : Format) (e : ℤ) : Prop where
  precision : 0 < f.precision
  least : f.least + f.precision ≤ e
  greatest : e < f.greatest

theorem holdsUnit_single : Format.single.HoldsUnit 0 := by constructor <;> decide

theorem holdsUnit_double : Format.double.HoldsUnit 0 := by constructor <;> decide

/-- Every count of such units that is no wider than a significand is one of the format. -/
theorem exists_canonical {e : ℤ} (hf : f.HoldsUnit e) {m : Nat} (hle : m ≤ 2 ^ f.precision) :
    ∃ k g, f.Canonical k g ∧ (k * 2 ^ g : ℚ) = m * 2 ^ e := by
  obtain ⟨hprecision, hleast, hgreatest⟩ := hf
  rcases Nat.eq_zero_or_pos m with rfl | hm
  · exact ⟨0, f.least, ⟨Nat.two_pow_pos _, Int.le_refl _, by omega, .inr rfl⟩, by simp⟩
  rcases Nat.lt_or_eq_of_le hle with hlt | rfl
  · -- The leading bit is shifted to the first place.
    have hlog : m.log2 < f.precision := (Nat.log2_lt (by omega)).2 hlt
    have hlower := Nat.log2_self_le (Nat.pos_iff_ne_zero.1 hm)
    have hupper := Nat.lt_log2_self (n := m)
    refine ⟨m * 2 ^ (f.precision - 1 - m.log2), e - (f.precision - 1 - m.log2 : Nat),
      ⟨?_, by omega, by omega, .inl ?_⟩, ?_⟩
    · calc m * 2 ^ (f.precision - 1 - m.log2)
          < 2 ^ (m.log2 + 1) * 2 ^ (f.precision - 1 - m.log2) :=
            Nat.mul_lt_mul_of_pos_right hupper (Nat.two_pow_pos _)
        _ = 2 ^ f.precision := by
          rw [← Nat.pow_add]
          congr 1
          omega
    · calc 2 ^ (f.precision - 1)
          = 2 ^ m.log2 * 2 ^ (f.precision - 1 - m.log2) := by
            rw [← Nat.pow_add]
            congr 1
            omega
        _ ≤ m * 2 ^ (f.precision - 1 - m.log2) := Nat.mul_le_mul_right _ hlower
    · rw [zpow_sub₀ two_ne_zero, zpow_natCast]
      push_cast
      field_simp
  · have hhalf : 2 ^ f.precision = 2 ^ (f.precision - 1) * 2 := by
      rw [← Nat.pow_succ]
      congr 1
      omega
    refine ⟨2 ^ (f.precision - 1), e + 1, ⟨?_, by omega, by omega, .inl (Nat.le_refl _)⟩, ?_⟩
    · exact Nat.pow_lt_pow_right (by omega) (by omega)
    · rw [hhalf, zpow_add_one₀ two_ne_zero]
      push_cast
      ring

theorem value?_ofRatio {e : ℤ} (hf : f.HoldsUnit e) (negative : Bool) {num den m : Nat}
    (hden : 0 < den) (hratio : (num / den : ℚ) = m * 2 ^ e) (hle : m ≤ 2 ^ f.precision) :
    (ofRatio negative num den : Binary f).value? =
      some (if negative then -(m * 2 ^ e : ℚ) else m * 2 ^ e) := by
  obtain ⟨k, g, h, hk⟩ := exists_canonical hf hle
  rw [ofRatio_of_ratio negative h hden (hratio.trans hk.symm), value?_finite, hk]

theorem value?_zero {e : ℤ} (hf : f.HoldsUnit e) (negative : Bool) :
    (zero negative : Binary f).value? = some 0 := by
  have hratio : ((0 : Nat) / (1 : Nat) : ℚ) = (0 : Nat) * 2 ^ e := by simp
  have hvalue := value?_ofRatio hf negative Nat.one_pos hratio (Nat.zero_le _)
  rw [ofRatio, if_pos rfl] at hvalue
  simpa using hvalue

theorem ofInt_is (hf : f.HoldsUnit 0) (hn : n.natAbs ≤ 2 ^ f.precision) :
    (ofInt n : Binary f).Is n := by
  have hvalue : (ofInt n : Binary f).value? = some (n : ℚ) := by
    rw [ofInt, value?_ofRatio hf _ Nat.one_pos (by simp) hn, Nat.cast_natAbs]
    by_cases hneg : n < 0
    · simp [hneg, abs_of_neg hneg]
    · simp [hneg, abs_of_nonneg (not_lt.1 hneg)]
  refine ⟨hvalue, ?_⟩
  by_cases hzero : n = 0
  · subst hzero
    have hofInt : (ofInt 0 : Binary f) = zero false := by simp [ofInt, ofRatio]
    rw [hofInt]
    unfold zero ofParts
    split <;> simp
  · intro hsigned
    rw [hsigned, value?_zero hf, Option.some.injEq] at hvalue
    exact hzero (by exact_mod_cast hvalue.symm)

/-- A float is a double. -/
theorem value?_convert (x : Single) : (x.convert : Double).value? = x.value? := by
  cases x with
  | finite negative m e h =>
    have hunit : Format.double.HoldsUnit e := by
      obtain ⟨_, hleast, hgreatest, _⟩ := h
      refine ⟨by decide, Int.le_trans (by decide) hleast, Int.lt_of_le_of_lt hgreatest (by decide)⟩
    have hle : m ≤ 2 ^ Format.double.precision := by
      have hwidths : 2 ^ Format.single.precision ≤ 2 ^ Format.double.precision := by decide
      exact h.1.le.trans hwidths
    rw [convert, ofScaled, value?_ofRatio hunit _ (twoPow_pos _) (cast_scaled m e) hle,
      value?_finite]
  | nan | infinite => rfl

/-! ## Comparison -/

/-- A significand counted in smaller units stands for the same number. -/
theorem cast_rescale (negative : Bool) (m : Nat) {e unit : ℤ} (hle : unit ≤ e) :
    (rescale negative m e unit * 2 ^ unit : ℚ) = signed negative m * 2 ^ e := by
  have hpow : (2 : ℚ) ^ e = 2 ^ (e - unit).toNat * 2 ^ unit := by
    rw [← zpow_natCast, ← zpow_add₀ two_ne_zero]
    congr 1
    omega
  cases negative <;> simp [rescale, signed, cast_twoPow, hpow, mul_assoc]

/-- Finite numbers are compared as the rational numbers that they are. -/
theorem compare?_of_value? (hx : x.value? = some p) (hy : y.value? = some q) :
    x.compare? y = some (compare p q) := by
  cases x with
  | finite a m e =>
    cases y with
    | finite b n g =>
      have hunit : (0 : ℚ) < 2 ^ min e g := by positivity
      have hmono : StrictMono fun k : ℤ => (k * 2 ^ min e g : ℚ) :=
        Int.cast_strictMono.mul_const hunit
      cases hx
      cases hy
      rw [← cast_rescale a m (min_le_left e g), ← cast_rescale b n (min_le_right e g),
        ← cmp_eq_compare, hmono.cmp_map_eq, cmp_eq_compare]
      rfl
    | nan | infinite => cases hy
  | nan | infinite => cases hx

theorem lt_iff (hx : x.value? = some p) (hy : y.value? = some q) : x.lt y = true ↔ p < q := by
  simp [lt, compare?_of_value? hx hy, compare_lt_iff_lt]

/-- Two numbers are equal if they have one value or are one infinity, so both zeros are equal. -/
theorem same_iff : x.same y = true ↔
    (∃ q, x.value? = some q ∧ y.value? = some q) ∨ ∃ negative, x = infinite negative ∧ y = x := by
  cases x with
  | nan => simp [same, compare?, value?]
  | infinite a =>
    cases y with
    | infinite b => cases a <;> cases b <;> simp [same, compare?, value?]
    | _ => cases a <;> simp [same, compare?, value?]
  | finite a m e =>
    cases y with
    | nan => simp [same, compare?, value?]
    | infinite b => cases b <;> simp [same, compare?, value?]
    | finite b n g =>
      rw [same, compare?_of_value? rfl rfl, beq_iff_eq, Option.some.injEq, compare_eq_iff_eq]
      constructor
      · intro heq
        exact .inl ⟨_, rfl, congrArg some heq.symm⟩
      · rintro (⟨q, hx, hy⟩ | ⟨negative, hx, _⟩)
        · cases hx
          exact (Option.some.inj hy).symm
        · cases hx

theorem le_iff (hx : x.value? = some p) (hy : y.value? = some q) : x.le y = true ↔ p ≤ q := by
  have hne : ∀ negative, x ≠ infinite negative := by
    rintro negative rfl
    cases hx
  rw [le, Bool.or_eq_true, lt_iff hx hy, same_iff, le_iff_lt_or_eq]
  simp [hx, hy, hne, eq_comm (a := p)]

/-- An infinity is beyond every number. -/
theorem lt_infinite (hx : x.value? = some q) (negative : Bool) :
    x.lt (infinite negative) = !negative ∧ (infinite negative).lt x = negative := by
  cases x with
  | finite => cases negative <;> simp [lt, compare?]
  | nan | infinite => cases hx

end Binary

end TemplateExpr
