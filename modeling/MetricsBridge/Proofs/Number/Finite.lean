import MetricsBridge.Proofs.Number.Double
import MetricsBridge.Proofs.Number.Exact

/-!
# Numbers within the range of the format

Only a number beyond `2 ^ 1023` can be too great for a binary64 number, so every literal that says
a number below `10 ^ 300` stands for one (`exists_toDouble?`).
-/
namespace MetricsBridge

namespace Double

variable {num den : Nat}

/-- The exponent is at most that of the first guess. -/
theorem fittingExponent_le (num den : Nat) :
    fittingExponent num den ≤ (num.log2 : Int) - den.log2 - 52 := by
  unfold fittingExponent
  dsimp only
  split_ifs
  · omega
  · exact le_rfl

/-- **A ratio below `2 ^ 1020` is rounded to a number.** -/
theorem exists_ofRatio? (isNegative : Bool) (h : num < 2 ^ 1020 * den) :
    ∃ x, ofRatio? isNegative num den = some x := by
  unfold ofRatio?
  by_cases hnum : num = 0
  · exact ⟨_, if_pos hnum⟩
  rw [if_neg hnum]
  have hlog : num.log2 < 1020 + (den.log2 + 1) := by
    rw [Nat.log2_lt hnum, pow_add]
    exact h.trans (Nat.mul_lt_mul_of_pos_left Nat.lt_log2_self (by positivity))
  have hfit := fittingExponent_le num den
  have hbound : max (fittingExponent num den) (-1074) + 1 ≤ 971 := by omega
  dsimp only
  generalize max (fittingExponent num den) (-1074) = exponent at hbound ⊢
  by_cases hfull : roundHalfEven (scaleDown num den exponent).1 (scaleDown num den exponent).2 =
      Nat.pow 2 53
  · rw [if_pos hfull]
    exact ⟨_, if_pos hbound⟩
  · rw [if_neg hfull]
    have hless : exponent ≤ 971 := by omega
    exact ⟨_, if_pos hless⟩

end Double

namespace Literal

/-- A number has at least the value of its leading place. -/
theorem pow_length_le {n : Nat} (hn : n ≠ 0) : 10 ^ ((Text.ofNat n).length - 1) ≤ n := by
  by_cases hone : (Text.ofNat n).length - 1 = 0
  · rw [hone]
    omega
  · apply Nat.le_of_not_lt
    intro hlt
    have hshorter : (Text.ofNat n).length ≤ (Text.ofNat n).length - 1 :=
      (Nat.length_toDigits_le_iff (by norm_num) (Nat.pos_of_ne_zero hone)).mpr hlt
    omega

theorem ten_pow_lt : (10 : ℚ) ^ 300 < 2 ^ 1020 :=
  calc (10 : ℚ) ^ 300 = (10 ^ 3) ^ 100 := by rw [← pow_mul]
    _ ≤ (2 ^ 10) ^ 100 := by gcongr; norm_num
    _ = 2 ^ 1000 := by rw [← pow_mul]
    _ < 2 ^ 1020 := pow_lt_pow_right₀ (by norm_num) (by norm_num)

/-- **A literal that says a number below `10 ^ 300` stands for a binary64 number.** -/
theorem exists_toDouble? {l : Literal} {x : ℚ} (hl : l.rational? = some x) (hx : |x| < 10 ^ 300) :
    ∃ y, l.toDouble? = some y := by
  cases l with
  | infinite isNegative => cases hl
  | notANumber => cases hl
  | decimal isNegative digits power =>
    have habs : |x| = digits * (10 : ℚ) ^ power := by
      rw [rational?, Option.some.injEq] at hl
      rw [← hl]
      cases isNegative <;> simp [abs_mul, abs_zpow]
    rw [habs] at hx
    unfold toDouble?
    dsimp only
    split_ifs with hzero hlarge hwhole
    · exact ⟨_, rfl⟩
    · -- The leading digit alone is too much.
      rw [not_or] at hzero
      have hdigits : (10 : ℚ) ^ ((Text.ofNat digits).length - 1) ≤ digits := by
        exact_mod_cast pow_length_le hzero.1
      have hne : (Text.ofNat digits).length ≠ 0 := by simpa using ofNat_ne_nil digits
      have hle : (10 : ℚ) ^ (300 : ℤ) ≤ digits * (10 : ℚ) ^ power := by
        calc (10 : ℚ) ^ (300 : ℤ)
            ≤ (10 : ℚ) ^ ((((Text.ofNat digits).length - 1 : ℕ) : ℤ) + power) :=
              zpow_le_zpow_right₀ (by norm_num) (by omega)
          _ = (10 : ℚ) ^ ((Text.ofNat digits).length - 1) * (10 : ℚ) ^ power := by
              rw [zpow_add₀ (by norm_num), zpow_natCast]
          _ ≤ digits * (10 : ℚ) ^ power := by gcongr
      exact absurd hx (not_lt.mpr (by exact_mod_cast hle))
    · obtain ⟨k, rfl⟩ := Int.eq_ofNat_of_zero_le hwhole
      apply Double.exists_ofRatio?
      have hlt := hx.trans ten_pow_lt
      rw [zpow_natCast] at hlt
      rw [mul_one, Int.toNat_natCast, Nat.pow_eq]
      exact_mod_cast hlt
    · obtain ⟨k, rfl⟩ : ∃ k : ℕ, power = -k := ⟨(-power).toNat, by omega⟩
      apply Double.exists_ofRatio?
      have hlt := hx.trans ten_pow_lt
      rw [zpow_neg, zpow_natCast, ← div_eq_mul_inv, div_lt_iff₀ (by positivity)] at hlt
      rw [neg_neg, Int.toNat_natCast, Nat.pow_eq]
      exact_mod_cast hlt

end Literal

end MetricsBridge
