-- The number of a format nearest to a ratio depends on nothing but the ratio, and a number
-- of the format is the nearest to itself. So a decimal may be written with more zeros or
-- with fewer, and what stands for a number exactly is read as that number.
import Mathlib.Algebra.Order.Field.Power
import Mathlib.Data.Int.Log
import Mathlib.Data.Rat.Floor
import Mathlib.Tactic.NormNum
import Mathlib.Tactic.Positivity
import Mathlib.Tactic.Ring
import TemplateExpr.Decimal.Basic

namespace TemplateExpr

namespace Binary

/-! ## Powers with whole exponents -/

/-- A power as a ratio of two powers whose exponents are not negative. -/
theorem zpow_eq_div (b : ℚ) (e : ℤ) : b ^ e = b ^ e.toNat / b ^ (-e).toNat := by
  obtain ⟨n, rfl | rfl⟩ := e.eq_nat_or_neg <;> simp

/-- The logarithm is determined by the two powers on its sides. -/
theorem log_eq_of_between {b : ℕ} {r : ℚ} {k : ℤ} (hb : 1 < b) (hle : (b : ℚ) ^ k ≤ r)
    (hlt : r < (b : ℚ) ^ (k + 1)) : Int.log b r = k := by
  have hpos : 0 < (b : ℚ) ^ k := by positivity
  have hr : 0 < r := lt_of_lt_of_le hpos hle
  have hlower := (Int.zpow_le_iff_le_log hb hr).1 hle
  have hupper := (Int.lt_zpow_iff_log_lt hb hr).1 hlt
  omega

/-- Ten is more than the third power of two. -/
theorem two_zpow_le_ten_zpow {k : ℤ} (hk : 0 ≤ k) : (2 : ℚ) ^ (3 * k) ≤ 10 ^ k := by
  rw [zpow_mul]
  exact zpow_le_zpow_left₀ hk (by norm_num) (by norm_num)

theorem ten_zpow_le_two_zpow {k : ℤ} (hk : k ≤ 0) : (10 : ℚ) ^ k ≤ 2 ^ (3 * k) := by
  have hinv := inv_anti₀ (by positivity) (two_zpow_le_ten_zpow (k := -k) (by omega))
  rwa [zpow_neg, inv_inv, mul_neg, zpow_neg, inv_inv] at hinv

/-! ## Rounding a ratio -/

theorem roundQuotient_mul_left {k : Nat} (hk : 0 < k) (a b : Nat) :
    roundQuotient (k * a) (k * b) = roundQuotient a b := by
  have hlt : 2 * (k * (a % b)) < k * b ↔ 2 * (a % b) < b := by
    rw [Nat.mul_left_comm]
    exact Nat.mul_lt_mul_left hk
  have heq : 2 * (k * (a % b)) = k * b ↔ 2 * (a % b) = b := by
    rw [Nat.mul_left_comm]
    exact Nat.mul_left_cancel_iff hk
  simp only [roundQuotient, Nat.mul_div_mul_left _ _ hk, Nat.mul_mod_mul_left, hlt, heq]

theorem roundQuotient_congr {a b a' b' : Nat} (hb : 0 < b) (hb' : 0 < b')
    (h : a * b' = a' * b) : roundQuotient a b = roundQuotient a' b' := by
  rw [← roundQuotient_mul_left hb' a b, ← roundQuotient_mul_left hb a' b', Nat.mul_comm b' a, h,
    Nat.mul_comm a' b, Nat.mul_comm b' b]

theorem roundQuotient_one (a : Nat) : roundQuotient a 1 = a := by
  simp [roundQuotient, Nat.mod_one]

theorem twoPow_pos (k : Nat) : 0 < twoPow k := Nat.two_pow_pos k

theorem cast_twoPow (k : Nat) : ((twoPow k : Nat) : ℚ) = 2 ^ k := by
  simp [twoPow]

/-- The two sides that the search for the greatest power of two compares. -/
theorem zpow_le_ratio_iff {num den : Nat} (hden : 0 < den) (e : ℤ) :
    den * twoPow e.toNat ≤ num * twoPow (-e).toNat ↔ (2 : ℚ) ^ e ≤ num / den := by
  have hden : (0 : ℚ) < den := by exact_mod_cast hden
  rw [zpow_eq_div, div_le_div_iff₀ (by positivity) hden, ← cast_twoPow, ← cast_twoPow,
    ← Nat.cast_mul, ← Nat.cast_mul, Nat.cast_le, Nat.mul_comm den]

theorem log2_between {n : Nat} (hn : 0 < n) :
    (2 : ℚ) ^ (n.log2 : ℤ) ≤ n ∧ (n : ℚ) < 2 ^ (n.log2 + 1 : ℤ) := by
  have hle := Nat.log2_self_le (Nat.pos_iff_ne_zero.1 hn)
  have hlt := Nat.lt_log2_self (n := n)
  exact ⟨by exact_mod_cast hle, by exact_mod_cast hlt⟩

theorem binaryLog_eq {num den : Nat} (hnum : 0 < num) (hden : 0 < den) :
    binaryLog num den = Int.log 2 (num / den : ℚ) := by
  obtain ⟨hnumle, hnumlt⟩ := log2_between hnum
  obtain ⟨hdenle, hdenlt⟩ := log2_between hden
  have hratio : (0 : ℚ) < num / den := by positivity
  have hbase : (1 : ℕ) < 2 := by omega
  -- the guess from the lengths is the logarithm or one more
  have hlower : (2 : ℚ) ^ ((num.log2 : ℤ) - den.log2 - 1) ≤ num / den := by
    rw [show (num.log2 : ℤ) - den.log2 - 1 = num.log2 - (den.log2 + 1) by omega,
      zpow_sub₀ (by norm_num)]
    exact div_le_div₀ (by positivity) hnumle (by positivity) hdenlt.le
  have hupper : (num / den : ℚ) < 2 ^ ((num.log2 : ℤ) - den.log2 + 1) := by
    rw [show (num.log2 : ℤ) - den.log2 + 1 = num.log2 + 1 - den.log2 by omega,
      zpow_sub₀ (by norm_num)]
    exact div_lt_div₀ hnumlt hdenle (by positivity) (by positivity)
  simp only [binaryLog, zpow_le_ratio_iff hden]
  split
  · rename_i hguess
    exact (log_eq_of_between hbase hguess hupper).symm
  · rename_i hguess
    refine (log_eq_of_between hbase hlower ?_).symm
    rw [sub_add_cancel]
    exact lt_of_not_ge hguess

theorem ratio_eq_iff {num den num' den' : Nat} (hden : 0 < den) (hden' : 0 < den') :
    (num / den : ℚ) = num' / den' ↔ num * den' = num' * den := by
  have hden : (den : ℚ) ≠ 0 := by positivity
  have hden' : (den' : ℚ) ≠ 0 := by positivity
  rw [div_eq_div_iff hden hden']
  exact_mod_cast Iff.rfl

variable {f : Format}

/-- Only the ratio decides which number is nearest. -/
theorem ofRatio_congr {num den num' den' : Nat} (negative : Bool) (hden : 0 < den)
    (hden' : 0 < den') (h : num * den' = num' * den) :
    (ofRatio negative num den : Binary f) = ofRatio negative num' den' := by
  by_cases hnum : num = 0
  · subst hnum
    have hzero : num' = 0 := by
      rw [Nat.zero_mul] at h
      exact (Nat.mul_eq_zero.1 h.symm).resolve_right (Nat.pos_iff_ne_zero.1 hden)
    rw [hzero, ofRatio, ofRatio, if_pos rfl, if_pos rfl]
  · have hnum' : num' ≠ 0 := by
      rintro rfl
      rw [Nat.zero_mul] at h
      rcases Nat.mul_eq_zero.1 h with hzero | hzero <;> omega
    have hplace : f.lastPlace num den = f.lastPlace num' den' := by
      rw [Format.lastPlace, Format.lastPlace, binaryLog_eq (Nat.pos_iff_ne_zero.2 hnum) hden,
        binaryLog_eq (Nat.pos_iff_ne_zero.2 hnum') hden', (ratio_eq_iff hden hden').2 h]
    have hround : ∀ j k : Nat, roundQuotient (num * twoPow j) (den * twoPow k) =
        roundQuotient (num' * twoPow j) (den' * twoPow k) := by
      intro j k
      refine roundQuotient_congr (Nat.mul_pos hden (twoPow_pos k))
        (Nat.mul_pos hden' (twoPow_pos k)) ?_
      calc num * twoPow j * (den' * twoPow k) = num * den' * (twoPow j * twoPow k) := by ring
        _ = num' * den * (twoPow j * twoPow k) := by rw [h]
        _ = num' * twoPow j * (den * twoPow k) := by ring
    simp only [ofRatio, if_neg hnum, if_neg hnum', hplace, hround]

/-! ## Numbers of the format -/

/-- The number `m * 2 ^ e` as a ratio. -/
theorem cast_scaled (m : Nat) (e : ℤ) :
    ((m * twoPow e.toNat : Nat) / (twoPow (-e).toNat : Nat) : ℚ) = m * 2 ^ e := by
  rw [zpow_eq_div, Nat.cast_mul, cast_twoPow, cast_twoPow, mul_div_assoc]

theorem log_scaled {m : Nat} (hm : 0 < m) (e : ℤ) :
    Int.log 2 (m * 2 ^ e : ℚ) = m.log2 + e := by
  obtain ⟨hle, hlt⟩ := log2_between hm
  have hpos : (0 : ℚ) < 2 ^ e := by positivity
  apply log_eq_of_between (by omega)
  · rw [Nat.cast_ofNat, zpow_add₀ (by norm_num)]
    exact mul_le_mul_of_nonneg_right hle hpos.le
  · rw [Nat.cast_ofNat, show (m.log2 : ℤ) + e + 1 = m.log2 + 1 + e by omega,
      zpow_add₀ (by norm_num)]
    exact mul_lt_mul_of_pos_right hlt hpos

theorem lastPlace_of_canonical {m : Nat} {e : ℤ} (h : f.Canonical m e) (hm : 0 < m) :
    f.lastPlace (m * twoPow e.toNat) (twoPow (-e).toNat) = e := by
  have hlog : binaryLog (m * twoPow e.toNat) (twoPow (-e).toNat) = m.log2 + e := by
    rw [binaryLog_eq (Nat.mul_pos hm (twoPow_pos _)) (twoPow_pos _), cast_scaled, log_scaled hm]
  obtain ⟨hwidth, hleast, _, hfull⟩ := h
  have hlower := Nat.log2_self_le (Nat.pos_iff_ne_zero.1 hm)
  have hupper := Nat.lt_log2_self (n := m)
  have hbits : m.log2 < f.precision :=
    (Nat.pow_lt_pow_iff_right (by omega)).1 (Nat.lt_of_le_of_lt hlower hwidth)
  rw [Format.lastPlace, hlog]
  rcases hfull with hfull | hfull
  · have hsame : f.precision - 1 < m.log2 + 1 :=
      (Nat.pow_lt_pow_iff_right (by omega)).1 (Nat.lt_of_le_of_lt hfull hupper)
    omega
  · omega

theorem ofRatio_of_canonical {m : Nat} {e : ℤ} (negative : Bool) (h : f.Canonical m e)
    (hm : 0 < m) : ofRatio negative (m * twoPow e.toNat) (twoPow (-e).toNat) =
      finite negative m e h := by
  have hnum : m * twoPow e.toNat ≠ 0 := Nat.mul_ne_zero (by omega) (twoPow_pos _).ne'
  have hround : roundQuotient (m * twoPow e.toNat * twoPow (-e).toNat)
      (twoPow (-e).toNat * twoPow e.toNat) = m := by
    have hscale : m * twoPow e.toNat * twoPow (-e).toNat * 1 =
        m * (twoPow (-e).toNat * twoPow e.toNat) := by ring
    rw [roundQuotient_congr (Nat.mul_pos (twoPow_pos _) (twoPow_pos _)) Nat.one_pos hscale,
      roundQuotient_one]
  have hne : m ≠ twoPow f.precision := Nat.ne_of_lt h.1
  simp only [ofRatio, if_neg hnum, lastPlace_of_canonical h hm, hround, if_neg hne, ofParts,
    dif_pos h]

/-- A zero has the least exponent. -/
theorem zero_eq {e : ℤ} (h : f.Canonical 0 e) (negative : Bool) :
    finite negative 0 e h = zero negative := by
  obtain ⟨_, _, _, hfull⟩ := id h
  have hleast : e = f.least := by
    rcases hfull with hfull | hfull
    · exact absurd hfull (Nat.not_le_of_lt (twoPow_pos _))
    · exact hfull
  subst hleast
  rw [zero, ofParts, dif_pos h]

/-- A ratio that is a number of the format is rounded to that number. -/
theorem ofRatio_of_ratio (negative : Bool) {num den m : Nat} {e : ℤ} (h : f.Canonical m e)
    (hden : 0 < den) (hratio : (num / den : ℚ) = m * 2 ^ e) :
    ofRatio negative num den = finite negative m e h := by
  rcases Nat.eq_zero_or_pos m with rfl | hm
  · have hnum : num = 0 := by
      have hne : (den : ℚ) ≠ 0 := by positivity
      simpa [hne] using hratio
    rw [zero_eq h, ofRatio, if_pos hnum]
  · have hcross : num * twoPow (-e).toNat = m * twoPow e.toNat * den := by
      rw [← ratio_eq_iff hden (twoPow_pos _), cast_scaled, hratio]
    rw [ofRatio_congr _ hden (twoPow_pos _) hcross, ofRatio_of_canonical _ h hm]

/-- The range of the format goes below one and above it. -/
structure Format.AroundOne (f : Format) : Prop where
  least : f.least ≤ 0
  greatest : 0 < f.greatest + f.precision

theorem aroundOne_single : Format.single.AroundOne := by constructor <;> decide

theorem aroundOne_double : Format.double.AroundOne := by constructor <;> decide

end Binary

/-! ## Decimals -/

namespace Decimal

/-- The number that a decimal stands for. -/
def value (d : Decimal) : ℚ := d.coefficient * 10 ^ d.exponent

theorem tenPow_pos (k : Nat) : 0 < tenPow k := Nat.pow_pos (by decide)

theorem cast_tenPow (k : Nat) : ((tenPow k : Nat) : ℚ) = 10 ^ k := by
  simp [tenPow]

theorem den_pos (d : Decimal) : 0 < d.den := tenPow_pos _

theorem num_div_den (d : Decimal) : (d.num / d.den : ℚ) = d.value := by
  rw [num, den, value, Binary.zpow_eq_div, Nat.cast_mul, cast_tenPow, cast_tenPow, mul_div_assoc]

theorem value_eq_zero_iff (d : Decimal) : d.value = 0 ↔ d.coefficient = 0 := by
  have hne : (10 : ℚ) ^ d.exponent ≠ 0 := by positivity
  simp [value, hne]

theorem length_digits_le_iff {n k : Nat} (hk : 0 < k) : (digits n).length ≤ k ↔ n < 10 ^ k :=
  Nat.length_toDigits_le_iff (by decide) hk

theorem length_digits_pos (n : Nat) : 0 < (digits n).length := Nat.length_toDigits_pos

theorem digits_between {n : Nat} (hn : n ≠ 0) :
    10 ^ ((digits n).length - 1) ≤ n ∧ n < 10 ^ (digits n).length := by
  have hpos := length_digits_pos n
  refine ⟨?_, (length_digits_le_iff hpos).1 (Nat.le_refl _)⟩
  by_cases hone : (digits n).length = 1
  · rw [hone]
    exact Nat.one_le_iff_ne_zero.2 hn
  · have hless : 0 < (digits n).length - 1 := by omega
    have hmore := (length_digits_le_iff (n := n) hless).not.1 (by omega)
    omega

/-- The count of digits and the exponent give the power of ten above the number. -/
theorem reach_eq {d : Decimal} (h : d.coefficient ≠ 0) : d.reach = Int.log 10 d.value + 1 := by
  obtain ⟨hle, hlt⟩ := digits_between h
  have hpos := length_digits_pos d.coefficient
  have hten : (0 : ℚ) < 10 ^ d.exponent := by positivity
  have hlog : Int.log 10 d.value = d.reach - 1 := by
    apply Binary.log_eq_of_between (by omega)
    · have hlower : (10 : ℚ) ^ ((digits d.coefficient).length - 1) ≤ d.coefficient := by
        exact_mod_cast hle
      rw [reach, Nat.cast_ofNat, show ((digits d.coefficient).length : ℤ) + d.exponent - 1 =
        ((digits d.coefficient).length - 1 : Nat) + d.exponent by omega,
        zpow_add₀ (by norm_num), zpow_natCast, value]
      exact mul_le_mul_of_nonneg_right hlower hten.le
    · have hupper : (d.coefficient : ℚ) < 10 ^ (digits d.coefficient).length := by
        exact_mod_cast hlt
      rw [reach, sub_add_cancel, Nat.cast_ofNat, zpow_add₀ (by norm_num), zpow_natCast, value]
      exact mul_lt_mul_of_pos_right hupper hten
  omega

theorem num_mul_den {d d' : Decimal} (h : d.value = d'.value) :
    d.num * d'.den = d'.num * d.den := by
  rw [← Binary.ratio_eq_iff d.den_pos d'.den_pos, num_div_den, num_div_den, h]

end Decimal

namespace Binary

variable {f : Format}

/-- Only the number that a decimal stands for decides which number is nearest. -/
theorem ofDecimal_congr {d d' : Decimal} (negative : Bool) (h : d.value = d'.value) :
    (ofDecimal negative d : Binary f) = ofDecimal negative d' := by
  have hiff : d.coefficient = 0 ↔ d'.coefficient = 0 := by
    rw [← d.value_eq_zero_iff, ← d'.value_eq_zero_iff, h]
  by_cases hzero : d.coefficient = 0
  · rw [ofDecimal, ofDecimal, if_pos hzero, if_pos (hiff.1 hzero)]
  · have hzero' : d'.coefficient ≠ 0 := fun hd => hzero (hiff.2 hd)
    have hreach : d.reach = d'.reach := by
      rw [Decimal.reach_eq hzero, Decimal.reach_eq hzero', h]
    simp only [ofDecimal, if_neg hzero, if_neg hzero', hreach,
      ofRatio_congr (f := f) negative d.den_pos d'.den_pos (Decimal.num_mul_den h)]

/-- A decimal that stands for a number of the format is read as that number. -/
theorem ofDecimal_of_canonical (hf : f.AroundOne) {m : Nat} {e : ℤ} (negative : Bool)
    (h : f.Canonical m e) (hm : 0 < m) {d : Decimal} (hd : d.value = m * 2 ^ e) :
    ofDecimal negative d = finite negative m e h := by
  have hvalue : 0 < d.value := by
    rw [hd]
    positivity
  have hzero : d.coefficient ≠ 0 := fun hd => hvalue.ne' (d.value_eq_zero_iff.2 hd)
  have hreach := Decimal.reach_eq hzero
  have hwidth := h.1
  have hleast := h.2.1
  have hgreatest := h.2.2.1
  -- the decimal is above the least number and below the first power of two out of range
  have habove : (2 : ℚ) ^ f.least ≤ d.value := by
    rw [hd]
    have hone : (1 : ℚ) ≤ m := by exact_mod_cast hm
    calc (2 : ℚ) ^ f.least ≤ 2 ^ e := zpow_le_zpow_right₀ (by norm_num) hleast
      _ ≤ m * 2 ^ e := le_mul_of_one_le_left (by positivity) hone
  have hbelow : d.value < 2 ^ (f.greatest + f.precision) := by
    have hlt : (m : ℚ) < 2 ^ f.precision := by exact_mod_cast hwidth
    calc d.value = m * 2 ^ e := hd
      _ ≤ m * 2 ^ f.greatest :=
        mul_le_mul_of_nonneg_left (zpow_le_zpow_right₀ (by norm_num) hgreatest) (by positivity)
      _ < 2 ^ f.precision * 2 ^ f.greatest := mul_lt_mul_of_pos_right hlt (by positivity)
      _ = 2 ^ (f.greatest + f.precision) := by
        rw [zpow_add₀ (by norm_num), zpow_natCast, mul_comm]
  have hlarge : ¬ f.greatest + f.precision ≤ 3 * (d.reach - 1) := by
    intro hreaches
    have hlower := Int.zpow_log_le_self (b := 10) (by omega) hvalue
    have hten := two_zpow_le_ten_zpow (k := Int.log 10 d.value) (by have := hf.greatest; omega)
    have hpow := (hten.trans hlower).trans_lt hbelow
    have hexponent := (zpow_lt_zpow_iff_right₀ (by norm_num)).1 hpow
    omega
  have hsmall : ¬ 3 * d.reach < f.least := by
    intro hreaches
    have hupper := Int.lt_zpow_succ_log_self (b := 10) (by omega) d.value
    have hten := ten_zpow_le_two_zpow (k := Int.log 10 d.value + 1) (by have := hf.least; omega)
    have hpow := habove.trans_lt (hupper.trans_le hten)
    have hexponent := (zpow_lt_zpow_iff_right₀ (by norm_num)).1 hpow
    omega
  rw [ofDecimal, if_neg hzero, if_neg hlarge, if_neg hsmall]
  exact ofRatio_of_ratio negative h d.den_pos (d.num_div_den.trans hd)

end Binary

end TemplateExpr
