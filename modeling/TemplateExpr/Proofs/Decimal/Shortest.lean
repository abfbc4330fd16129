-- The decimal that is written for a finite number is read as that number. Every point of a
-- grid that the search takes was read back before; where it finds none, all digits of the
-- number are written, and they stand for it exactly.
import TemplateExpr.Decimal.Shortest
import TemplateExpr.Proofs.Decimal.Nearest

namespace TemplateExpr

namespace Decimal

theorem value_trimmed (d : Decimal) : d.trimmed.value = d.value := by
  induction d using trimmed.induct with
  | case1 d h ih =>
    have hten : d.coefficient = d.coefficient / 10 * 10 := by omega
    rw [trimmed, if_pos h, ih, value, value, zpow_add_one₀ (by norm_num)]
    nth_rewrite 2 [hten]
    push_cast
    ring
  | case2 d h => rw [trimmed, if_neg h]

theorem value_exact (m : Nat) (e : ℤ) : (exact m e).value = m * 2 ^ e := by
  unfold exact
  split
  · rename_i he
    have hpow : (2 : ℚ) ^ e = 2 ^ e.toNat := by
      rw [← zpow_natCast, Int.toNat_of_nonneg he]
    rw [value, Nat.cast_mul, Binary.cast_twoPow, hpow, zpow_zero, mul_one]
  · rename_i he
    have hpow : (5 : ℚ) ^ (-e).toNat = 5 ^ (-e) := by
      rw [← zpow_natCast, Int.toNat_of_nonneg (by omega)]
    have hten : (10 : ℚ) = 2 * 5 := by norm_num
    have hfive : (5 : ℚ) ^ (-e) * 5 ^ e = 1 := by
      rw [← zpow_add₀ (by norm_num), neg_add_cancel, zpow_zero]
    calc ((m * Nat.pow 5 (-e).toNat : Nat) : ℚ) * 10 ^ e
        = m * 5 ^ (-e) * (2 ^ e * 5 ^ e) := by rw [hten, mul_zpow, ← hpow]; simp
      _ = m * 2 ^ e * (5 ^ (-e) * 5 ^ e) := by ring
      _ = m * 2 ^ e := by rw [hfive, mul_one]

theorem accepts_of_pick? {accepts : Decimal → Bool} {num den : Nat} {unit : ℤ} {d : Decimal}
    (h : pick? accepts num den unit = some d) : accepts d = true := by
  unfold pick? at h
  dsimp only at h
  split at h
  · split at h
    · cases h
      assumption
    · cases h
      assumption
  · cases h
    assumption
  · cases h
    assumption
  · cases h

end Decimal

namespace Binary

variable {f : Format}

theorem ofDecimal_shortest (hf : f.AroundOne) {m : Nat} {e : ℤ} (h : f.Canonical m e)
    (hm : 0 < m) : ofDecimal false
      (shortest m e fun d => decide (ofDecimal false d = finite false m e h)) =
        finite false m e h := by
  unfold shortest
  dsimp only
  rw [ofDecimal_congr false (Decimal.value_trimmed _)]
  generalize hsearch : List.findSome? _ (List.range 17) = found
  cases found with
  | none => exact ofDecimal_of_canonical hf false h hm (Decimal.value_exact m e)
  | some d =>
    obtain ⟨n, _, hpick⟩ := List.exists_of_findSome?_eq_some hsearch
    exact of_decide_eq_true (Decimal.accepts_of_pick? hpick)

/-- What is written for a number that is not negative is read as that number. -/
theorem ofDecimal_decimal? (hf : f.AroundOne) {m : Nat} {e : ℤ} (h : f.Canonical m e) :
    ∃ d, (finite false m e h).decimal? = some d ∧ ofDecimal false d = finite false m e h := by
  refine ⟨_, rfl, ?_⟩
  split
  · rename_i hm
    subst hm
    rw [zero_eq h, ofDecimal, if_pos rfl]
  · rename_i hm
    exact ofDecimal_shortest hf h (Nat.pos_of_ne_zero hm)

/-! ## Signs -/

theorem negative_of_ofParts {negative sign : Bool} {m n : Nat} {e k : ℤ} {h : f.Canonical m e}
    (heq : ofParts negative n k = finite sign m e h) : sign = negative := by
  unfold ofParts at heq
  split at heq
  · cases heq
    rfl
  · cases heq

/-- A number that is read without a sign is not negative. -/
theorem negative_of_ofDecimal {negative sign : Bool} {m : Nat} {e : ℤ} {h : f.Canonical m e}
    {d : Decimal} (heq : ofDecimal negative d = finite sign m e h) : sign = negative := by
  unfold ofDecimal at heq
  split at heq
  · exact negative_of_ofParts heq
  · split at heq
    · cases heq
    · split at heq
      · exact negative_of_ofParts heq
      · unfold ofRatio at heq
        dsimp only at heq
        split at heq
        · exact negative_of_ofParts heq
        · split at heq
          · exact negative_of_ofParts heq
          · exact negative_of_ofParts heq

end Binary

end TemplateExpr
