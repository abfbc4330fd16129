-- Floating-point numbers as whole ones. The value of the number is brought to a whole one, which
-- the format has exactly because it is never wider than a significand; held against the limits,
-- which the format has too, it is in the range or refused, and so the cast never saturates. Cut
-- off, it comes back as a double, which has every whole number of 32 bits.
import Mathlib.Algebra.Order.Round
import TemplateExpr.Binary.Narrowing
import TemplateExpr.Proofs.Binary.Value

namespace TemplateExpr

/-! ## The nearest whole number -/

/-- No whole number is nearer, and if another one is as near then this is the even one. -/
structure IsNearest (q : ℚ) (n : ℤ) : Prop where
  nearest : ∀ k : ℤ, |q - n| ≤ |q - k|
  even : ∀ k : ℤ, k ≠ n → |q - k| = |q - n| → Even n

namespace IsNearest

variable {q : ℚ} {m n : ℤ}

/-- A number at most half a unit away is nearest, because all others are at least that far. -/
theorem of_le_half (h : |q - n| ≤ 1 / 2) (heven : |q - n| = 1 / 2 → Even n) : IsNearest q n := by
  have hothers : ∀ k : ℤ, k ≠ n → 1 ≤ |q - n| + |q - k| := by
    intro k hk
    have hgap : (1 : ℚ) ≤ |(n : ℚ) - k| := by exact_mod_cast Int.one_le_abs (sub_ne_zero.2 hk.symm)
    have htriangle := abs_sub_le (n : ℚ) q k
    rw [abs_sub_comm (n : ℚ) q] at htriangle
    exact hgap.trans htriangle
  refine ⟨?_, ?_⟩
  · intro k
    by_cases hk : k = n
    · rw [hk]
    · linarith [hothers k hk]
  · intro k hk heq
    apply heven
    linarith [hothers k hk]

/-- With at most half a unit over it, a whole number is nearest. -/
theorem down {rest : ℚ} (hnonneg : 0 ≤ rest) (hle : rest ≤ 1 / 2) (heven : rest = 1 / 2 → Even n) :
    IsNearest (n + rest) n := by
  have hdistance : |(n : ℚ) + rest - n| = rest := by
    rw [add_sub_cancel_left, abs_of_nonneg hnonneg]
  apply of_le_half <;> rw [hdistance]
  · exact hle
  · exact heven

/-- With at least half a unit over a whole number, the next one is nearest. -/
theorem up {rest : ℚ} (hle : rest ≤ 1) (hge : 1 / 2 ≤ rest) (hodd : rest = 1 / 2 → Odd n) :
    IsNearest (n + rest) (n + 1) := by
  have hdistance : |(n : ℚ) + rest - (n + 1 : ℤ)| = 1 - rest := by
    rw [Int.cast_add, Int.cast_one, add_sub_add_left_eq_sub, abs_sub_comm,
      abs_of_nonneg (sub_nonneg.2 hle)]
  apply of_le_half <;> rw [hdistance]
  · linarith
  · intro hhalf
    exact (hodd (by linarith)).add_one

protected theorem refl (n : ℤ) : IsNearest n n := by
  refine .of_le_half (by simp) ?_
  intro hhalf
  simp at hhalf

theorem le_half (h : IsNearest q n) : |q - n| ≤ 1 / 2 :=
  (h.nearest (round q)).trans (abs_sub_round q)

theorem unique (hm : IsNearest q m) (hn : IsNearest q n) : m = n := by
  by_contra hne
  have hsame : |q - m| = |q - n| := le_antisymm (hm.nearest n) (hn.nearest m)
  obtain ⟨a, ha⟩ := hm.even n (Ne.symm hne) hsame.symm
  obtain ⟨b, hb⟩ := hn.even m hne hsame
  -- Two numbers within half a unit are neighbours, and neighbours are not both even.
  have hclose : |(m : ℚ) - n| ≤ 1 := by
    have htriangle := abs_sub_le (m : ℚ) q n
    rw [abs_sub_comm (m : ℚ) q] at htriangle
    linarith [hm.le_half, hn.le_half]
  have hbetween : |m - n| ≤ 1 := by exact_mod_cast hclose
  rw [abs_le] at hbetween
  omega

theorem neg (h : IsNearest q n) : IsNearest (-q) (-n) := by
  have hmirror : ∀ k : ℤ, |-q - k| = |q - (-k : ℤ)| := by
    intro k
    rw [← abs_neg]
    congr 1
    push_cast
    ring
  refine ⟨?_, ?_⟩
  · intro k
    rw [hmirror, hmirror, neg_neg]
    exact h.nearest (-k)
  · intro k hk heq
    rw [hmirror, hmirror, neg_neg] at heq
    exact (h.even (-k) (by omega) heq).neg

end IsNearest

namespace Binary

/-- A ratio as its whole part and the rest. -/
theorem ratio_eq_add (a : Nat) {b : Nat} (hb : 0 < b) :
    (a / b : ℚ) = (a / b : Nat) + (a % b : Nat) / b := by
  have hne : (b : ℚ) ≠ 0 := by positivity
  rw [div_eq_iff hne, add_mul, div_mul_cancel₀ _ hne]
  exact_mod_cast (Nat.div_add_mod' a b).symm

theorem isNearest_roundQuotient (a : Nat) {b : Nat} (hb : 0 < b) :
    IsNearest (a / b : ℚ) (roundQuotient a b : Nat) := by
  have hpos : (0 : ℚ) < b := by positivity
  have hlt : (a % b : Nat) / (b : ℚ) < 1 / 2 ↔ 2 * (a % b) < b := by
    rw [div_lt_div_iff₀ hpos two_pos, mul_comm _ (2 : ℚ), one_mul]
    exact_mod_cast Iff.rfl
  have heq : (a % b : Nat) / (b : ℚ) = 1 / 2 ↔ 2 * (a % b) = b := by
    rw [div_eq_div_iff hpos.ne' two_ne_zero, mul_comm _ (2 : ℚ), one_mul]
    exact_mod_cast Iff.rfl
  have hone : (a % b : Nat) / (b : ℚ) ≤ 1 := by
    rw [div_le_one hpos]
    exact_mod_cast (Nat.mod_lt a hb).le
  rw [ratio_eq_add a hb]
  unfold roundQuotient
  split
  · rename_i hdown
    apply IsNearest.down (n := (a / b : Nat)) (by positivity)
    · rcases hdown with hdown | hdown
      · exact (hlt.2 hdown).le
      · exact (heq.2 hdown.1).le
    · intro hhalf
      have hdouble := heq.1 hhalf
      exact_mod_cast Nat.even_iff.2 (by omega)
  · rename_i hup
    apply IsNearest.up (n := (a / b : Nat)) hone
    · exact not_lt.1 fun h => hup (.inl (hlt.1 h))
    · intro hhalf
      have hdouble := heq.1 hhalf
      exact_mod_cast Nat.odd_iff.2 (by omega)

end Binary

/-! ## Cutting off the fraction -/

/-- The whole number left of a ratio without its fraction. -/
def cutOff (q : ℚ) : ℤ := if 0 ≤ q then ⌊q⌋ else ⌈q⌉

theorem cutOff_neg (q : ℚ) : cutOff (-q) = -cutOff q := by
  rcases lt_trichotomy q 0 with hneg | rfl | hpos
  · simp [cutOff, hneg.le, not_le.2 hneg, Int.floor_neg]
  · simp [cutOff]
  · simp [cutOff, hpos.le, not_le.2 hpos, Int.ceil_neg]

theorem cutOff_ratio (a b : Nat) : cutOff (a / b : ℚ) = (a / b : Nat) := by
  have hnonneg : (0 : ℚ) ≤ a / b := by positivity
  rw [cutOff, if_pos hnonneg, Rat.floor_natCast_div_natCast, Int.natCast_ediv]

theorem cutOff_intCast (n : ℤ) : cutOff n = n := by
  simp [cutOff]

/-- Nothing is cut off beyond a limit on the other side of zero. -/
theorem cutOff_between {q : ℚ} {low high : ℤ} (hlow : low ≤ 0) (hhigh : 0 < high)
    (hle : low ≤ q) (hlt : q < high) : low ≤ cutOff q ∧ cutOff q < high := by
  unfold cutOff
  split
  · rename_i hnonneg
    exact ⟨hlow.trans (Int.floor_nonneg.2 hnonneg), Int.floor_lt.2 hlt⟩
  · rename_i hneg
    have hle' : (low : ℚ) ≤ ⌈q⌉ := hle.trans (Int.le_ceil q)
    have hceil : ⌈q⌉ ≤ 0 := Int.ceil_le.2 (by simpa using (not_le.1 hneg).le)
    exact ⟨by exact_mod_cast hle', by omega⟩

/-! ## Whole numbers of the format -/

namespace Binary

variable {f : Format} {x : Binary f} {q : ℚ}

/-- A rule for quotients that leaves whole numbers as they are, and gives nothing larger than the
next one, gives numbers that the format has. -/
theorem value?_toWhole (hf : f.HoldsUnit 0) {quotient : Nat → Nat → Nat}
    (hone : ∀ a, quotient a 1 = a) (hnext : ∀ a b, quotient a b ≤ a + 1) (negative : Bool)
    {m : Nat} {e : ℤ} (h : f.Canonical m e) :
    ((finite negative m e h).toWhole quotient).value? =
      some (signed negative (quotient (m * twoPow e.toNat) (twoPow (-e).toNat)) : ℚ) := by
  have hexact : ∃ k g, f.Canonical k g ∧
      (k * 2 ^ g : ℚ) = quotient (m * twoPow e.toNat) (twoPow (-e).toNat) := by
    rcases Int.le_total 0 e with he | he
    · refine ⟨m, e, h, ?_⟩
      have hwhole : twoPow (-e).toNat = 1 := by
        rw [Int.toNat_of_nonpos (by omega)]
        rfl
      rw [← cast_scaled, hwhole, hone, Nat.cast_one, div_one]
    · -- A number with a fraction is smaller than the least number that is too wide.
      have hunit : twoPow e.toNat = 1 := by
        rw [Int.toNat_of_nonpos he]
        rfl
      have hwide : quotient (m * twoPow e.toNat) (twoPow (-e).toNat) ≤ 2 ^ f.precision := by
        rw [hunit, Nat.mul_one]
        exact (hnext _ _).trans h.1
      obtain ⟨k, g, hk, hvalue⟩ := exists_canonical hf hwide
      exact ⟨k, g, hk, by simpa using hvalue⟩
  obtain ⟨k, g, hk, hvalue⟩ := hexact
  rw [toWhole, ofRatio_of_ratio negative hk Nat.one_pos (by simpa using hvalue.symm),
    value?_finite, hvalue]
  cases negative <;> simp [signed]

theorem toWhole_of_value?_eq_none {quotient : Nat → Nat → Nat} (hx : x.value? = none) :
    x.toWhole quotient = x := by
  cases x with
  | finite => cases hx
  | nan | infinite => rfl

/-- Rounded, a number is the whole number nearest to it, and as such not rounded again. -/
theorem value?_roundTiesEven (hf : f.HoldsUnit 0) (hx : x.value? = some q) :
    ∃ n : ℤ, x.roundTiesEven.value? = some (n : ℚ) ∧ IsNearest q n := by
  cases x with
  | finite negative m e h =>
    have hnext : ∀ a b, roundQuotient a b ≤ a + 1 := by
      intro a b
      have hle := Nat.div_le_self a b
      unfold roundQuotient
      split <;> omega
    have hnearest := isNearest_roundQuotient (m * twoPow e.toNat) (twoPow_pos (-e).toNat)
    rw [cast_scaled] at hnearest
    refine ⟨_, value?_toWhole hf roundQuotient_one hnext negative h, ?_⟩
    rw [value?_finite] at hx
    cases negative
    · cases hx
      exact hnearest
    · cases hx
      exact hnearest.neg
  | nan | infinite => cases hx

theorem value?_trunc (hf : f.HoldsUnit 0) (hx : x.value? = some q) :
    x.trunc.value? = some (cutOff q : ℚ) := by
  cases x with
  | finite negative m e h =>
    have hnext : ∀ a b : Nat, a / b ≤ a + 1 := by
      intro a b
      exact (Nat.div_le_self a b).trans (Nat.le_succ a)
    have hcut := cutOff_ratio (m * twoPow e.toNat) (twoPow (-e).toNat)
    rw [cast_scaled] at hcut
    rw [value?_finite] at hx
    rw [trunc, value?_toWhole hf Nat.div_one hnext negative h]
    cases negative <;> cases hx <;> simp [signed, cutOff_neg, hcut]
  | nan | infinite => cases hx

/-! ## The cast -/

theorem saturated_of_value? (hx : x.value? = some q) (low high : ℤ) :
    x.saturated low high = max low (min high (cutOff q)) := by
  cases x with
  | finite negative m e h =>
    have hcut := cutOff_ratio (m * twoPow e.toNat) (twoPow (-e).toNat)
    rw [cast_scaled] at hcut
    rw [value?_finite] at hx
    cases negative <;> cases hx <;> simp [saturated, signed, cutOff_neg, hcut]
  | nan | infinite => cases hx

/-- Between its limits the cast only cuts off. -/
theorem saturated_of_between {low high : ℤ} (hx : x.value? = some q) (hlow : low ≤ cutOff q)
    (hhigh : cutOff q ≤ high) : x.saturated low high = cutOff q := by
  rw [saturated_of_value? hx, min_eq_right hhigh, max_eq_right hlow]

end Binary

/-! ## Narrowing -/

/-- Words for the whole numbers of a range as far below zero as above it, and for no others. -/
structure Narrows {α : Type} (narrow? : ℤ → Option α) (toInt : α → ℤ) (limit : ℤ) : Prop where
  some_iff : ∀ {k w}, narrow? k = some w ↔ toInt w = k
  none_iff : ∀ {k}, narrow? k = none ↔ ¬ (-limit ≤ k ∧ k < limit)

theorem narrows_int32 : Narrows int32? Int32.toInt 2147483648 := by
  refine ⟨int32?_eq_some_iff, ?_⟩
  intro k
  unfold int32?
  split <;> simp <;> omega

theorem narrows_int64 : Narrows int64? Int64.toInt 9223372036854775808 := by
  refine ⟨int64?_eq_some_iff, ?_⟩
  intro k
  unfold int64?
  split <;> simp <;> omega

namespace Double

variable {x : Double} {q : ℚ} {n : ℤ}

/-! ## The limits -/

theorem value?_ofInt (hn : n.natAbs ≤ 9007199254740992) :
    (Binary.ofInt n : Double).value? = some (n : ℚ) :=
  (Binary.ofInt_is Binary.holdsUnit_double hn).1

/-- So far out not every whole number is a double, but a power of two is one. -/
theorem value?_aboveInt64 : aboveInt64.value? = some 9223372036854775808 := by
  have hunit : Binary.Format.double.HoldsUnit 63 := by constructor <;> decide
  have hratio : ((9223372036854775808 : Nat) / (1 : Nat) : ℚ) = (1 : Nat) * 2 ^ (63 : ℤ) := by
    norm_num
  have hvalue := Binary.value?_ofRatio hunit false Nat.one_pos hratio (by decide)
  rw [← hratio] at hvalue
  simpa [aboveInt64, Binary.ofInt] using hvalue

/-- If all that would be cast to a limit is refused, the cast of the rest is exact. -/
theorem cast_of_value? {α : Type} {refused : Bool} {inside : Prop} [Decidable inside]
    {low high : ℤ} (word : ℤ → α) (hx : x.value? = some q) (hrefused : refused = true ↔ ¬ inside)
    (hinside : inside → low ≤ cutOff q ∧ cutOff q ≤ high) :
    (if refused then none else some (word (x.saturated low high))) =
      if inside then some (word (cutOff q)) else none := by
  by_cases hin : inside
  · obtain ⟨hlow, hhigh⟩ := hinside hin
    rw [if_neg (by rwa [hrefused, not_not]), if_pos hin,
      Binary.saturated_of_between hx hlow hhigh]
  · rw [if_pos (hrefused.2 hin), if_neg hin]

theorem toInt32?_of_value? (hx : x.value? = some q) : x.toInt32? =
    if -2147483648 ≤ q ∧ q ≤ 2147483647 then some (Int32.ofInt (cutOff q)) else none := by
  have hmin : (Binary.ofInt Int32.minValue.toInt : Double).value? = some (-2147483648) :=
    value?_ofInt (by decide)
  have hmax : (Binary.ofInt Int32.maxValue.toInt : Double).value? = some 2147483647 :=
    value?_ofInt (by decide)
  refine cast_of_value? Int32.ofInt hx ?_ ?_
  · rw [Binary.isNaN_of_value? hx, Bool.false_or, Bool.or_eq_true, Binary.lt_iff hx hmin,
      Binary.lt_iff hmax hx, not_and_or, not_le, not_le]
  · rintro ⟨hle, hge⟩
    have hlimit : q < (2147483648 : ℤ) := lt_of_le_of_lt hge (by norm_num)
    obtain ⟨hlow, hhigh⟩ := @cutOff_between q (-2147483648) 2147483648 (by omega) (by omega)
      (by exact_mod_cast hle) hlimit
    exact ⟨hlow, Int.le_of_lt_add_one hhigh⟩

theorem toInt64?_of_value? (hx : x.value? = some q) : x.toInt64? =
    if -9223372036854775808 ≤ q ∧ q < 9223372036854775808 then some (Int64.ofInt (cutOff q))
    else none := by
  refine cast_of_value? Int64.ofInt hx ?_ ?_
  · rw [Binary.isNaN_of_value? hx, Bool.false_or, Bool.or_eq_true,
      Binary.lt_iff hx (Binary.value?_neg value?_aboveInt64), Binary.le_iff value?_aboveInt64 hx,
      not_and_or, not_le, not_lt]
  · rintro ⟨hle, hlt⟩
    obtain ⟨hlow, hhigh⟩ := @cutOff_between q (-9223372036854775808) 9223372036854775808
      (by omega) (by omega) (by exact_mod_cast hle) (by exact_mod_cast hlt)
    exact ⟨hlow, Int.le_of_lt_add_one hhigh⟩

/-- Neither an infinity nor a NaN gets past the comparisons. -/
theorem toInt32?_of_value?_eq_none (hx : x.value? = none) : x.toInt32? = none := by
  have hmin := Binary.lt_infinite (value?_ofInt (n := Int32.minValue.toInt) (by decide))
  have hmax := Binary.lt_infinite (value?_ofInt (n := Int32.maxValue.toInt) (by decide))
  cases x with
  | finite => cases hx
  | nan => rfl
  | infinite negative =>
    apply if_pos
    cases negative with
    | true => rw [(hmin true).2, Bool.or_true, Bool.true_or]
    | false => rw [(hmax false).1, Bool.not_false, Bool.or_true]

theorem toInt64?_of_value?_eq_none (hx : x.value? = none) : x.toInt64? = none := by
  have habove := Binary.lt_infinite value?_aboveInt64
  have hbelow := Binary.lt_infinite (Binary.value?_neg value?_aboveInt64)
  cases x with
  | finite => cases hx
  | nan => rfl
  | infinite negative => cases negative <;> simp [toInt64?, Binary.le, habove, hbelow]

/-- A whole number is cast to the word for it, or there is none. -/
theorem toInt32?_of_whole (hx : x.value? = some (n : ℚ)) : x.toInt32? = int32? n := by
  have hrange : (-2147483648 ≤ (n : ℚ) ∧ (n : ℚ) ≤ 2147483647) ↔
      -2147483648 ≤ n ∧ n ≤ 2147483647 := by exact_mod_cast Iff.rfl
  simp only [toInt32?_of_value? hx, cutOff_intCast, hrange, int32?]

theorem toInt64?_of_whole (hx : x.value? = some (n : ℚ)) : x.toInt64? = int64? n := by
  have hrange : (-9223372036854775808 ≤ (n : ℚ) ∧ (n : ℚ) < 9223372036854775808) ↔
      -9223372036854775808 ≤ n ∧ n ≤ 9223372036854775807 := by
    have hnext : n ≤ 9223372036854775807 ↔ n < 9223372036854775808 := by omega
    rw [hnext]
    exact_mod_cast Iff.rfl
  simp only [toInt64?_of_value? hx, cutOff_intCast, hrange, int64?]

/-! ## Rounding and cutting off -/

theorem roundToInt32?_of_nearest (hx : x.value? = some q) (hn : IsNearest q n) :
    x.roundToInt32? = int32? n := by
  obtain ⟨k, hk, hnearest⟩ := Binary.value?_roundTiesEven Binary.holdsUnit_double hx
  rw [roundToInt32?, toInt32?_of_whole hk, hnearest.unique hn]

theorem roundToInt64?_of_nearest (hx : x.value? = some q) (hn : IsNearest q n) :
    x.roundToInt64? = int64? n := by
  obtain ⟨k, hk, hnearest⟩ := Binary.value?_roundTiesEven Binary.holdsUnit_double hx
  rw [roundToInt64?, toInt64?_of_whole hk, hnearest.unique hn]

/-- What a double is rounded to in words of a range: the nearest whole number if it is in the range,
and nothing otherwise. -/
structure RoundsTo {α : Type} (x : Double) (toInt : α → ℤ) (limit : ℤ) (rounded : Option α) :
    Prop where
  some_iff : ∀ w, rounded = some w ↔ ∃ q, x.value? = some q ∧ IsNearest q (toInt w)
  none_iff : rounded = none ↔
    ¬ ∃ q n, x.value? = some q ∧ IsNearest q n ∧ -limit ≤ n ∧ n < limit

theorem roundsTo_of_narrows {α : Type} {narrow? : ℤ → Option α} {toInt : α → ℤ} {limit : ℤ}
    {rounded : Option α} (h : Narrows narrow? toInt limit)
    (hnone : x.value? = none → rounded = none)
    (hsome : ∀ q n, x.value? = some q → IsNearest q n → rounded = narrow? n) :
    x.RoundsTo toInt limit rounded := by
  cases hx : x.value? with
  | none =>
    rw [hnone hx]
    constructor <;> simp [hx]
  | some q =>
    obtain ⟨n, _, hn⟩ := Binary.value?_roundTiesEven Binary.holdsUnit_double hx
    rw [hsome q n hx hn]
    refine ⟨?_, ?_⟩
    · intro w
      rw [h.some_iff, hx]
      constructor
      · rintro rfl
        exact ⟨q, rfl, hn⟩
      · rintro ⟨_, hq, hw⟩
        cases hq
        exact hw.unique hn
    · rw [h.none_iff, not_iff_not, hx]
      constructor
      · intro hrange
        exact ⟨q, n, rfl, hn, hrange⟩
      · rintro ⟨_, k, hq, hk, hrange⟩
        cases hq
        rwa [hn.unique hk]

theorem roundsTo_int32 (x : Double) : x.RoundsTo Int32.toInt 2147483648 x.roundToInt32? := by
  refine roundsTo_of_narrows narrows_int32 ?_ fun q n => roundToInt32?_of_nearest
  intro hx
  rw [roundToInt32?, Binary.roundTiesEven, Binary.toWhole_of_value?_eq_none hx]
  exact toInt32?_of_value?_eq_none hx

theorem roundsTo_int64 (x : Double) :
    x.RoundsTo Int64.toInt 9223372036854775808 x.roundToInt64? := by
  refine roundsTo_of_narrows narrows_int64 ?_ fun q n => roundToInt64?_of_nearest
  intro hx
  rw [roundToInt64?, Binary.roundTiesEven, Binary.toWhole_of_value?_eq_none hx]
  exact toInt64?_of_value?_eq_none hx

/-- Cut off, a number has its word, or there is none. -/
theorem toInt32?_trunc (x : Double) :
    toInt32? x.trunc = (x.value?.map cutOff).bind int32? := by
  cases hx : x.value? with
  | none =>
    rw [Binary.trunc, Binary.toWhole_of_value?_eq_none hx]
    exact toInt32?_of_value?_eq_none hx
  | some q => exact toInt32?_of_whole (Binary.value?_trunc Binary.holdsUnit_double hx)

/-- In the range of 32 bits, or what stands for all that is not. -/
theorem truncateThroughInt32_is (x : Double) :
    x.truncateThroughInt32.Is (((x.value?.map cutOff).bind int32?).getD indefinite).toInt := by
  rw [← toInt32?_trunc]
  apply Binary.ofInt_is Binary.holdsUnit_double
  have hle := Int32.le_toInt ((toInt32? x.trunc).getD indefinite)
  have hlt := Int32.toInt_lt ((toInt32? x.trunc).getD indefinite)
  have hwide : 2 ^ Binary.Format.double.precision = 9007199254740992 := rfl
  omega

/-- How a double becomes a whole number. -/
structure NarrowsExactly (x : Double) : Prop where
  rounded_int : x.RoundsTo Int32.toInt 2147483648 x.roundToInt32?
  rounded_long : x.RoundsTo Int64.toInt 9223372036854775808 x.roundToInt64?
  truncated : ∀ q, x.value? = some q → -2147483648 ≤ cutOff q → cutOff q < 2147483648 →
    x.truncateThroughInt32.Is (cutOff q)
  indefinite : (¬ ∃ q, x.value? = some q ∧ -2147483648 ≤ cutOff q ∧ cutOff q < 2147483648) →
    x.truncateThroughInt32.Is (-2147483648)
  /-- Whatever it is made of, the result is a whole number of 32 bits, and no zero with a sign. -/
  whole : ∃ n : Int32, x.truncateThroughInt32.Is n.toInt

/-- Rounded or cut off, a double is exactly the whole number that it should be, at the ends of each
range as well, or it is refused or becomes the indefinite number. -/
theorem a_double_narrows_exactly (x : Double) : x.NarrowsExactly := by
  have htruncated := x.truncateThroughInt32_is
  refine ⟨x.roundsTo_int32, x.roundsTo_int64, ?_, ?_, _, htruncated⟩
  · intro q hq hle hlt
    have hfits := mt narrows_int32.none_iff.1 (not_not.2 ⟨hle, hlt⟩)
    obtain ⟨n, hn⟩ := Option.ne_none_iff_exists'.1 hfits
    rw [hq, Option.map_some, Option.bind_some, hn, Option.getD_some,
      narrows_int32.some_iff.1 hn] at htruncated
    exact htruncated
  · intro hnone
    have hrefused : (x.value?.map cutOff).bind int32? = none := by
      cases hq : x.value? with
      | none => rfl
      | some q => exact narrows_int32.none_iff.2 fun hrange => hnone ⟨q, hq, hrange⟩
    rw [hrefused] at htruncated
    exact htruncated

end Double

end TemplateExpr
