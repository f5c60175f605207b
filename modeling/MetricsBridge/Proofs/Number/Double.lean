import Mathlib.Algebra.Order.Field.Power
import Mathlib.Data.Rat.Cast.Order
import Mathlib.Tactic.FieldSimp
import Mathlib.Tactic.Positivity
import Mathlib.Tactic.Ring
import MetricsBridge.Number.Literal

/-!
# The size of binary64 numbers

Rounding a ratio scales it by a power of two so that at most 53 binary digits stand before the point
(`scaleDown_lt_of_fittingExponent_le`).  So the significand of every number that a literal stands
for lies below `2 ^ 53` (`significand_lt_of_toDouble?`).
-/
namespace MetricsBridge

/-- A rounded quotient is at most one above the quotient. -/
theorem roundHalfEven_le (num den : Nat) : roundHalfEven num den ≤ num / den + 1 := by
  unfold roundHalfEven
  dsimp only
  split_ifs <;> omega

theorem roundHalfEven_one (n : Nat) : roundHalfEven n 1 = n := by
  simp [roundHalfEven, Nat.mod_one]

namespace Double

variable {num den : Nat} {e : Int}

/-- A scaled ratio lies below a number if the ratio lies below the scaled number. -/
theorem scaleDown_lt_iff (hd : 0 < den) (bound : Nat) :
    (scaleDown num den e).1 / (scaleDown num den e).2 < bound ↔
      (num : ℚ) < bound * (den * (2 : ℚ) ^ e) := by
  unfold scaleDown
  split_ifs with he
  · obtain ⟨k, rfl⟩ := Int.eq_ofNat_of_zero_le he
    have hpos : 0 < den * Nat.pow 2 k := Nat.mul_pos hd (Nat.pow_pos (by norm_num))
    simp only [Int.toNat_natCast]
    rw [Nat.div_lt_iff_lt_mul hpos, Nat.pow_eq, ← Nat.cast_lt (α := ℚ)]
    push_cast
    rw [zpow_natCast]
  · obtain ⟨k, rfl⟩ : ∃ k : ℕ, e = -k := ⟨(-e).toNat, by omega⟩
    simp only [neg_neg, Int.toNat_natCast]
    rw [Nat.div_lt_iff_lt_mul hd, Nat.pow_eq, ← Nat.cast_lt (α := ℚ)]
    push_cast
    rw [zpow_neg, zpow_natCast, ← div_eq_mul_inv, ← mul_div_assoc, lt_div_iff₀ (by positivity)]

/-- By the first guess there are at most 53 digits before the point. -/
theorem lt_of_guess (hd : den ≠ 0) :
    (num : ℚ) < (2 ^ 53 : ℕ) * (den * (2 : ℚ) ^ ((num.log2 : Int) - den.log2 - 52)) := by
  have hnum : (num : ℚ) < 2 ^ (num.log2 + 1) := by exact_mod_cast Nat.lt_log2_self
  have hden : (2 : ℚ) ^ den.log2 ≤ den := by exact_mod_cast Nat.log2_self_le hd
  have hpow : (2 : ℚ) ^ ((num.log2 : Int) - den.log2 - 52) =
      2 ^ num.log2 / 2 ^ den.log2 / 2 ^ 52 := by
    rw [zpow_sub₀ two_ne_zero, zpow_sub₀ two_ne_zero]
    norm_cast
  calc (num : ℚ) < 2 ^ (num.log2 + 1) := hnum
    _ = (2 ^ 53 : ℕ) * (2 ^ den.log2 * (2 : ℚ) ^ ((num.log2 : Int) - den.log2 - 52)) := by
      rw [hpow]
      push_cast
      field_simp
      ring
    _ ≤ (2 ^ 53 : ℕ) * (den * (2 : ℚ) ^ ((num.log2 : Int) - den.log2 - 52)) := by gcongr

/-- **At most 53 digits stand before the point** of a ratio that is scaled by its fitting exponent
or by a greater one. -/
theorem scaleDown_lt_of_fittingExponent_le (hd : den ≠ 0)
    (he : fittingExponent num den ≤ e) :
    (scaleDown num den e).1 / (scaleDown num den e).2 < 2 ^ 53 := by
  have hpos : 0 < den := Nat.pos_of_ne_zero hd
  rw [scaleDown_lt_iff hpos]
  have hfit : (num : ℚ) < (2 ^ 53 : ℕ) * (den * (2 : ℚ) ^ fittingExponent num den) := by
    unfold fittingExponent
    dsimp only
    split_ifs with h
    · rw [Nat.pow_eq, scaleDown_lt_iff hpos] at h
      refine h.trans_eq ?_
      rw [zpow_sub_one₀ two_ne_zero]
      push_cast
      ring
    · exact lt_of_guess hd
  refine hfit.trans_le ?_
  gcongr
  norm_num

/-- **The significand of a rounded ratio.** -/
theorem significand_lt_of_ofRatio? {isNegative : Bool} {x : Double} (hd : den ≠ 0)
    (h : ofRatio? isNegative num den = some x) : x.significand < 2 ^ 53 := by
  unfold ofRatio? at h
  by_cases hn : num = 0
  · rw [if_pos hn, Option.some.injEq] at h
    subst h
    exact Nat.pow_pos (by norm_num)
  rw [if_neg hn] at h
  dsimp only at h
  generalize hexp : max (fittingExponent num den) (-1074) = exponent at h
  have hquot := scaleDown_lt_of_fittingExponent_le hd (hexp ▸ le_max_left _ _)
  have hround := roundHalfEven_le (scaleDown num den exponent).1 (scaleDown num den exponent).2
  generalize roundHalfEven (scaleDown num den exponent).1 (scaleDown num den exponent).2 = rounded
    at h hround
  rw [Nat.pow_eq, Nat.pow_eq] at h
  by_cases hr : rounded = 2 ^ 53
  · rw [if_pos hr] at h
    split_ifs at h
    cases h
    exact Nat.pow_lt_pow_right (by norm_num) (by norm_num)
  · rw [if_neg hr] at h
    split_ifs at h
    cases h
    change rounded < 2 ^ 53
    omega

end Double

/-- **The significand of a number that a literal stands for.** -/
theorem significand_lt_of_toDouble? {l : Literal} {x : Double} (h : l.toDouble? = some x) :
    x.significand < 2 ^ 53 := by
  cases l with
  | decimal isNegative digits power =>
    unfold Literal.toDouble? at h
    dsimp only at h
    split_ifs at h
    · cases h
      exact Nat.pow_pos (by norm_num)
    · exact Double.significand_lt_of_ofRatio? one_ne_zero h
    · refine Double.significand_lt_of_ofRatio? ?_ h
      exact (Nat.pow_pos (by norm_num)).ne'
  | infinite isNegative => cases h
  | notANumber => cases h

end MetricsBridge
