import Mathlib.Tactic.Linarith
import MetricsBridge.Proofs.Number.Finite

/-!
# The nearest binary64 number

A literal stands for the number of the format that is nearest to what it says; of two equally near
ones it stands for the one with the even significand (`isNearest_of_toDouble?`).  The rounding works
on the grid of the multiples of one power of two: every number of the format lies on this grid
(`exists_eq_mul_pow`) or below all that is rounded there (`magnitude_lt_of_exponent_lt`).

What is rounded to a number on one side of a bound is found from the middle between the two
neighbours at the bound (`lt_of_lt_middle`, `le_of_middle_le`), as for the bound zero
(`value_nonneg_iff`).
-/
namespace MetricsBridge

/-! ### Rounding to natural numbers -/

/-- The natural number nearest to a ratio, the even one of two. -/
structure RoundsTo (t : ℚ) (r : ℕ) : Prop where
  near : |r - t| ≤ 1 / 2
  even : |r - t| = 1 / 2 → r % 2 = 0

/-- Without fractions: a rounded quotient is at most half a divisor away, and even if it is that
far. -/
theorem roundHalfEven_spec (num : ℕ) {den : ℕ} (hden : 0 < den) :
    2 * (roundHalfEven num den * den) ≤ 2 * num + den ∧
    2 * num ≤ 2 * (roundHalfEven num den * den) + den ∧
    (2 * (roundHalfEven num den * den) = 2 * num + den ∨
      2 * num = 2 * (roundHalfEven num den * den) + den → roundHalfEven num den % 2 = 0) := by
  have hmod := Nat.mod_lt num hden
  have hdiv := Nat.div_add_mod' num den
  have hnext : (num / den + 1) * den = num / den * den + den := Nat.succ_mul _ _
  unfold roundHalfEven
  dsimp only
  generalize num % den = rem at *
  generalize num / den = floor at *
  split_ifs
  · omega
  · omega
  · omega
  · omega

theorem roundsTo_roundHalfEven (num : ℕ) {den : ℕ} (hden : 0 < den) :
    RoundsTo (num / den) (roundHalfEven num den) := by
  obtain ⟨hup, hdown, heven⟩ := roundHalfEven_spec num hden
  generalize roundHalfEven num den = r at *
  have hpos : (0 : ℚ) < den := by exact_mod_cast hden
  have hdiff : (r : ℚ) - num / den = (2 * (r * den) - 2 * num) / (2 * den) := by
    field_simp
  constructor
  · have hup' : (2 : ℚ) * (r * den) ≤ 2 * num + den := by exact_mod_cast hup
    have hdown' : (2 : ℚ) * num ≤ 2 * (r * den) + den := by exact_mod_cast hdown
    rw [hdiff, abs_le, div_le_iff₀ (by positivity), le_div_iff₀ (by positivity)]
    constructor <;> linarith
  · intro htie
    apply heven
    rw [hdiff, abs_eq (by norm_num), div_eq_iff (by positivity), div_eq_iff (by positivity)] at htie
    refine htie.imp ?_ ?_
    · intro h
      have h' : (2 : ℚ) * (r * den) = 2 * num + den := by linarith
      exact_mod_cast h'
    · intro h
      have h' : (2 : ℚ) * num = 2 * (r * den) + den := by linarith
      exact_mod_cast h'

namespace RoundsTo

variable {t : ℚ} {r k : ℕ}

/-- Any other natural number is at least half of one away. -/
theorem half_le (h : RoundsTo t r) (hk : k ≠ r) : 1 / 2 ≤ |k - t| := by
  have hone : (1 : ℚ) ≤ |(k : ℚ) - r| := by
    have hint : (1 : ℤ) ≤ |(k : ℤ) - r| := Int.one_le_abs (by omega)
    exact_mod_cast hint
  have htriangle := abs_sub_le (k : ℚ) t r
  rw [abs_sub_comm t] at htriangle
  have hnear := h.near
  linarith

/-- **No natural number is nearer.** -/
theorem le (h : RoundsTo t r) (k : ℕ) : |r - t| ≤ |k - t| := by
  by_cases hk : k = r
  · rw [hk]
  · exact h.near.trans (h.half_le hk)

theorem le_of_le (h : RoundsTo t r) (hk : k ≤ t) : k ≤ r := by
  by_contra hlt
  have hone : (r : ℚ) + 1 ≤ k := by exact_mod_cast Nat.lt_of_not_le hlt
  have habs := (abs_le.mp h.near).1
  linarith

theorem even_of_eq (h : RoundsTo t r) (hk : k ≠ r) (heq : |k - t| = |r - t|) : r % 2 = 0 := by
  apply h.even
  exact le_antisymm h.near (heq ▸ h.half_le hk)

end RoundsTo

namespace Double

/-! ### The format -/

/-- What the number is without its sign. -/
def magnitude (x : Double) : ℚ :=
  x.significand * (2 : ℚ) ^ x.exponent

/-- What the number is. -/
def value (x : Double) : ℚ :=
  (if x.isNegative then -1 else 1) * x.magnitude

/-- The least positive number of the format. -/
def least : ℚ := (2 : ℚ) ^ (-1074 : ℤ)

/-- The number is one of the format: its exponent is the least one that its significand allows. -/
structure IsInFormat (x : Double) : Prop where
  significand_lt : x.significand < 2 ^ 53
  le_exponent : -1074 ≤ x.exponent
  exponent_le : x.exponent ≤ 971
  isLeast : 2 ^ 52 ≤ x.significand ∨ x.exponent = -1074

/-- No number of the format is nearer to the ratio, and if another one is as near, the significand
is even. -/
structure IsNearest (q : ℚ) (x : Double) : Prop where
  isInFormat : x.IsInFormat
  le : ∀ y : Double, y.IsInFormat → |x.value - q| ≤ |y.value - q|
  even : ∀ y : Double, y.IsInFormat → y.value ≠ x.value → |y.value - q| = |x.value - q| →
    x.significand % 2 = 0

variable {x y : Double} {q : ℚ}

theorem least_pos : 0 < least :=
  zpow_pos two_pos _

theorem magnitude_nonneg (x : Double) : 0 ≤ x.magnitude :=
  mul_nonneg (Nat.cast_nonneg _) (zpow_pos two_pos _).le

theorem abs_sign_mul (isNegative : Bool) (hq : 0 ≤ q) :
    |(if isNegative then -1 else 1) * q| = q := by
  cases isNegative <;> simp [abs_of_nonneg hq]

theorem abs_value (x : Double) : |x.value| = x.magnitude :=
  abs_sign_mul _ x.magnitude_nonneg

theorem value_of_positive (h : x.isNegative = false) : x.value = x.magnitude := by
  simp [value, h]

theorem value_of_negative (h : x.isNegative = true) : x.value = -x.magnitude := by
  simp [value, h]

theorem isInFormat_zero (isNegative : Bool) : (zero isNegative).IsInFormat :=
  ⟨Nat.pow_pos two_pos, le_rfl, by norm_num [zero], .inr rfl⟩

@[simp] theorem magnitude_zero (isNegative : Bool) : (zero isNegative).magnitude = 0 := by
  simp [magnitude, zero]

@[simp] theorem value_zero (isNegative : Bool) : (zero isNegative).value = 0 := by
  simp [value]

/-- Numbers of the format are multiples of the least one. -/
theorem significand_mul_least_le (hx : x.IsInFormat) : x.significand * least ≤ x.magnitude := by
  have hpow : least ≤ (2 : ℚ) ^ x.exponent := zpow_le_zpow_right₀ one_le_two hx.le_exponent
  exact mul_le_mul_of_nonneg_left hpow (Nat.cast_nonneg _)

theorem magnitude_eq_zero_or (hx : x.IsInFormat) : x.magnitude = 0 ∨ least ≤ x.magnitude := by
  by_cases hzero : x.significand = 0
  · left
    simp [magnitude, hzero]
  · right
    have hone : (1 : ℚ) ≤ x.significand := by exact_mod_cast Nat.pos_of_ne_zero hzero
    calc least = 1 * least := (one_mul _).symm
      _ ≤ x.significand * least := mul_le_mul_of_nonneg_right hone least_pos.le
      _ ≤ x.magnitude := significand_mul_least_le hx

/-- A number of the format lies on the grid of the multiples of a smaller power of two. -/
theorem exists_eq_mul_pow {e : ℤ} (he : e ≤ x.exponent) :
    ∃ k : ℕ, x.magnitude = k * (2 : ℚ) ^ e := by
  obtain ⟨k, hk⟩ := Int.le.dest he
  refine ⟨x.significand * 2 ^ k, ?_⟩
  rw [magnitude, ← hk, zpow_add₀ two_ne_zero, zpow_natCast]
  push_cast
  ring

/-- It lies below where 53 binary digits stand before the point of a greater one. -/
theorem magnitude_lt_of_exponent_lt (hx : x.IsInFormat) {e : ℤ} (he : x.exponent < e) :
    x.magnitude < 2 ^ 52 * (2 : ℚ) ^ e := by
  have hsignificand : (x.significand : ℚ) < 2 ^ 53 := by exact_mod_cast hx.significand_lt
  calc x.magnitude < 2 ^ 53 * (2 : ℚ) ^ x.exponent :=
        mul_lt_mul_of_pos_right hsignificand (zpow_pos two_pos _)
    _ ≤ 2 ^ 53 * (2 : ℚ) ^ (e - 1) := by
        have hpow : (2 : ℚ) ^ x.exponent ≤ (2 : ℚ) ^ (e - 1) :=
          zpow_le_zpow_right₀ one_le_two (by omega)
        linarith
    _ = 2 ^ 52 * (2 : ℚ) ^ e := by
        rw [zpow_sub_one₀ two_ne_zero]
        ring

/-! ### Nearest magnitudes -/

/-- The sign can be left out of the account. -/
theorem isNearest_of_magnitude (hx : x.IsInFormat) (hq : 0 ≤ q)
    (hle : ∀ y : Double, y.IsInFormat → |x.magnitude - q| ≤ |y.magnitude - q|)
    (heven : ∀ y : Double, y.IsInFormat → y.magnitude ≠ x.magnitude →
      |y.magnitude - q| = |x.magnitude - q| → x.significand % 2 = 0) :
    IsNearest ((if x.isNegative then -1 else 1) * q) x := by
  have habs := abs_sign_mul x.isNegative hq
  have hdist : |x.value - (if x.isNegative then -1 else 1) * q| = |x.magnitude - q| := by
    rw [value, ← mul_sub, abs_mul]
    cases x.isNegative <;> simp
  have hother : ∀ y : Double,
      |y.magnitude - q| ≤ |y.value - (if x.isNegative then -1 else 1) * q| := by
    intro y
    have h := abs_abs_sub_abs_le_abs_sub y.value ((if x.isNegative then -1 else 1) * q)
    rwa [abs_value, habs] at h
  refine ⟨hx, ?_, ?_⟩
  · intro y hy
    rw [hdist]
    exact (hle y hy).trans (hother y)
  · intro y hy hne htie
    rw [hdist] at htie
    have hequal : |y.magnitude - q| = |x.magnitude - q| :=
      le_antisymm (htie ▸ hother y) (hle y hy)
    by_cases hmagnitude : y.magnitude = x.magnitude
    · -- The other number is the opposite one.  Its distance is that of zero at least, so that both
      -- are zero.
      exfalso
      have hopposite : y.value = -x.value := by
        refine (abs_eq_abs.mp ?_).resolve_left hne
        rw [abs_value, abs_value, hmagnitude]
      have hsum : |y.value - (if x.isNegative then -1 else 1) * q| = x.magnitude + q := by
        rw [hopposite, ← abs_neg, neg_sub, sub_neg_eq_add, value, add_comm, ← mul_add,
          abs_sign_mul _ (add_nonneg x.magnitude_nonneg hq)]
      have hzero := hle (zero false) (isInFormat_zero false)
      rw [magnitude_zero, zero_sub, abs_neg, abs_of_nonneg hq, ← htie, hsum] at hzero
      have hvalue : x.value = 0 := by
        rw [← abs_eq_zero, abs_value]
        have hnonneg := x.magnitude_nonneg
        linarith
      rw [hopposite, hvalue, neg_zero] at hne
      exact hne rfl
    · exact heven y hy hmagnitude hequal

/-- A ratio below half of the least number is rounded to zero. -/
theorem isNearest_zero (isNegative : Bool) (hq : 0 ≤ q) (hsmall : q < least / 2) :
    IsNearest ((if isNegative then -1 else 1) * q) (zero isNegative) := by
  refine isNearest_of_magnitude (isInFormat_zero isNegative) hq ?_ ?_
  · intro y hy
    rw [magnitude_zero, zero_sub, abs_neg, abs_of_nonneg hq]
    by_cases hzero : y.magnitude = 0
    · rw [hzero, zero_sub, abs_neg, abs_of_nonneg hq]
    · have hleast := (magnitude_eq_zero_or hy).resolve_left hzero
      have habs := le_abs_self (y.magnitude - q)
      linarith
  · intro y hy hne heq
    rfl

/-- **Rounding on a grid.**  The nearest multiple of a power of two is the nearest number of the
format, if 53 binary digits stand before the point of the scaled ratio or the grid is the finest. -/
theorem isNearest_of_roundsTo {t : ℚ} {r : ℕ} {e : ℤ} {isNegative : Bool} (ht : 0 ≤ t)
    (hround : RoundsTo t r) (hfit : 2 ^ 52 ≤ t ∨ e = -1074) (hx : x.IsInFormat)
    (hsign : x.isNegative = isNegative) (hmagnitude : x.magnitude = r * (2 : ℚ) ^ e)
    (heven : r % 2 = 0 → x.significand % 2 = 0) :
    IsNearest ((if isNegative then -1 else 1) * (t * (2 : ℚ) ^ e)) x := by
  subst hsign
  have hpow : (0 : ℚ) < (2 : ℚ) ^ e := zpow_pos two_pos _
  have hscale : ∀ u : ℚ, |u * (2 : ℚ) ^ e - t * (2 : ℚ) ^ e| = |u - t| * (2 : ℚ) ^ e := by
    intro u
    rw [← sub_mul, abs_mul, abs_of_pos hpow]
  -- What is not on the grid lies below it, and farther away than the start of the grid.
  have hfar : ∀ y : Double, y.IsInFormat →
      (∃ k : ℕ, y.magnitude = k * (2 : ℚ) ^ e) ∨
        |x.magnitude - t * (2 : ℚ) ^ e| < |y.magnitude - t * (2 : ℚ) ^ e| := by
    intro y hy
    by_cases he : e ≤ y.exponent
    · exact .inl (exists_eq_mul_pow he)
    · right
      have hle := hy.le_exponent
      have hlow : 2 ^ 52 ≤ t := hfit.resolve_right (by omega)
      have hbelow := magnitude_lt_of_exponent_lt hy (by omega : y.exponent < e)
      have hstart := hround.le (2 ^ 52)
      rw [Nat.cast_pow, Nat.cast_ofNat, abs_of_nonpos (sub_nonpos.mpr hlow)] at hstart
      calc |x.magnitude - t * (2 : ℚ) ^ e| = |r - t| * (2 : ℚ) ^ e := by rw [hmagnitude, hscale]
        _ ≤ -(2 ^ 52 - t) * (2 : ℚ) ^ e := mul_le_mul_of_nonneg_right hstart hpow.le
        _ < -(y.magnitude - t * (2 : ℚ) ^ e) := by linarith
        _ ≤ |y.magnitude - t * (2 : ℚ) ^ e| := neg_le_abs _
  refine isNearest_of_magnitude hx (mul_nonneg ht hpow.le) ?_ ?_
  · intro y hy
    obtain ⟨k, hk⟩ | hlt := hfar y hy
    · rw [hmagnitude, hk, hscale, hscale]
      exact mul_le_mul_of_nonneg_right (hround.le k) hpow.le
    · exact hlt.le
  · intro y hy hne htie
    obtain ⟨k, hk⟩ | hlt := hfar y hy
    · apply heven
      rw [hmagnitude, hk, hscale, hscale] at htie
      rw [hmagnitude, hk] at hne
      refine hround.even_of_eq ?_ (mul_right_cancel₀ hpow.ne' htie)
      rintro rfl
      exact hne rfl
    · exact absurd htie hlt.ne'

/-! ### Rounded ratios -/

variable {num den : ℕ} {e : ℤ}

theorem scaleDown_eq (num : ℕ) (hden : 0 < den) (e : ℤ) :
    0 < (scaleDown num den e).2 ∧
      ((scaleDown num den e).1 : ℚ) / (scaleDown num den e).2 * (2 : ℚ) ^ e = num / den := by
  have hpos : (0 : ℚ) < den := by exact_mod_cast hden
  unfold scaleDown
  split_ifs with he
  · obtain ⟨k, rfl⟩ := Int.eq_ofNat_of_zero_le he
    rw [Int.toNat_natCast, Nat.pow_eq, zpow_natCast]
    refine ⟨by positivity, ?_⟩
    push_cast
    field_simp
  · obtain ⟨k, rfl⟩ : ∃ k : ℕ, e = -k := ⟨(-e).toNat, by omega⟩
    rw [neg_neg, Int.toNat_natCast, Nat.pow_eq, zpow_neg, zpow_natCast]
    refine ⟨hden, ?_⟩
    push_cast
    field_simp

/-- One below the first guess there are 53 digits before the point. -/
theorem guess_sub_one_le (hnum : num ≠ 0) :
    2 ^ 52 * (den * (2 : ℚ) ^ ((num.log2 : ℤ) - den.log2 - 52 - 1)) ≤ num := by
  have hlow : (2 : ℚ) ^ num.log2 ≤ num := by exact_mod_cast Nat.log2_self_le hnum
  have hden : (den : ℚ) ≤ 2 ^ (den.log2 + 1) := by exact_mod_cast Nat.lt_log2_self.le
  have hpow : (2 : ℚ) ^ ((num.log2 : ℤ) - den.log2 - 52 - 1) =
      2 ^ num.log2 / 2 ^ den.log2 / 2 ^ 52 / 2 := by
    rw [zpow_sub₀ two_ne_zero, zpow_sub₀ two_ne_zero, zpow_sub₀ two_ne_zero]
    norm_cast
  calc 2 ^ 52 * (den * (2 : ℚ) ^ ((num.log2 : ℤ) - den.log2 - 52 - 1))
      ≤ 2 ^ 52 * (2 ^ (den.log2 + 1) * (2 : ℚ) ^ ((num.log2 : ℤ) - den.log2 - 52 - 1)) := by
        gcongr
    _ = 2 ^ num.log2 := by
        rw [hpow]
        field_simp
        ring
    _ ≤ num := hlow

/-- **53 binary digits stand before the point** of a ratio that is scaled by its fitting
exponent. -/
theorem le_scaleDown_fittingExponent (hnum : num ≠ 0) (hden : 0 < den) :
    2 ^ 52 * (den * (2 : ℚ) ^ fittingExponent num den) ≤ num := by
  unfold fittingExponent
  dsimp only
  split_ifs with h
  · exact guess_sub_one_le hnum
  · rw [Nat.pow_eq, scaleDown_lt_iff hden, not_lt] at h
    exact_mod_cast h

/-- The exponent at which a ratio is rounded leaves 53 digits before the point, and nothing but the
least exponent of the format leaves fewer. -/
theorem le_div_of_exponent (hnum : num ≠ 0) (hden : 0 < den)
    (he : e = max (fittingExponent num den) (-1074)) :
    2 ^ 52 ≤ ((scaleDown num den e).1 : ℚ) / (scaleDown num den e).2 ∨ e = -1074 := by
  by_cases hleast : e = -1074
  · exact .inr hleast
  · left
    have hfit : fittingExponent num den = e := by omega
    have hle := le_scaleDown_fittingExponent hnum hden
    have hpos : (0 : ℚ) < den := by exact_mod_cast hden
    rw [hfit, ← mul_assoc, mul_right_comm, ← le_div_iff₀ hpos, ← (scaleDown_eq num hden e).2] at hle
    exact le_of_mul_le_mul_right hle (zpow_pos two_pos _)

/-- **A rounded ratio is the nearest number.** -/
theorem isNearest_of_ofRatio? {isNegative : Bool} (hden : den ≠ 0)
    (h : ofRatio? isNegative num den = some x) :
    IsNearest ((if isNegative then -1 else 1) * (num / den)) x := by
  have hpos : 0 < den := Nat.pos_of_ne_zero hden
  unfold ofRatio? at h
  by_cases hnum : num = 0
  · rw [if_pos hnum, Option.some.injEq] at h
    rw [hnum, Nat.cast_zero, zero_div, ← h]
    exact isNearest_zero isNegative le_rfl (half_pos least_pos)
  rw [if_neg hnum] at h
  dsimp only at h
  generalize hexp : max (fittingExponent num den) (-1074) = e at h
  have hlt := scaleDown_lt_of_fittingExponent_le hden (hexp ▸ le_max_left _ _ : _ ≤ e)
  have hfit := le_div_of_exponent hnum hpos hexp.symm
  have hleast : -1074 ≤ e := by omega
  obtain ⟨hdpos, hscale⟩ := scaleDown_eq num hpos e
  have hround := roundsTo_roundHalfEven (scaleDown num den e).1 hdpos
  have hup := roundHalfEven_le (scaleDown num den e).1 (scaleDown num den e).2
  have hnonneg : (0 : ℚ) ≤ (scaleDown num den e).1 / (scaleDown num den e).2 := by positivity
  rw [← hscale]
  generalize roundHalfEven (scaleDown num den e).1 (scaleDown num den e).2 = r at h hround hup
  generalize ((scaleDown num den e).1 : ℚ) / (scaleDown num den e).2 = t at hround hfit hnonneg
  rw [Nat.pow_eq, Nat.pow_eq] at h
  by_cases hcarry : r = 2 ^ 53
  · rw [if_pos hcarry] at h
    split_ifs at h with hbound
    cases h
    refine isNearest_of_roundsTo hnonneg hround hfit ?_ rfl ?_ ?_
    · exact ⟨by norm_num, le_add_of_le_of_nonneg hleast zero_le_one, hbound, .inl le_rfl⟩
    · rw [magnitude, hcarry, zpow_add_one₀ two_ne_zero]
      push_cast
      ring
    · intro heven
      norm_num
  · rw [if_neg hcarry] at h
    split_ifs at h with hbound
    cases h
    refine isNearest_of_roundsTo hnonneg hround hfit ?_ rfl rfl id
    refine ⟨?_, hleast, hbound, hfit.imp_left ?_⟩
    · change r < 2 ^ 53
      omega
    · intro hlow
      exact hround.le_of_le (by exact_mod_cast hlow)

/-! ### Between two numbers -/

namespace IsNearest

variable {a : Double} {b : ℚ}

/-- **Below the middle** between a number of the format and a greater one, the nearest number is
below the greater one. -/
theorem lt_of_lt_middle (h : IsNearest q x) (ha : a.IsInFormat) (hab : a.value < b)
    (hq : 2 * q < a.value + b) : x.value < b := by
  by_contra hle
  have hdist := h.le a ha
  have hx := le_abs_self (x.value - q)
  have hnear : |a.value - q| < b - q := by
    rw [abs_lt]
    constructor <;> linarith
  linarith

/-- **From the middle on** between a number and a greater one of the format, the nearest number is
not below the first; it is that one only if its significand is even. -/
theorem le_of_middle_le {a : ℚ} {b : Double} (h : IsNearest q x) (hb : b.IsInFormat)
    (hab : a < b.value) (hq : a + b.value ≤ 2 * q) :
    a ≤ x.value ∧ (x.value = a → x.significand % 2 = 0) := by
  have hdist := h.le b hb
  have hfar := neg_le_abs (x.value - q)
  have hnear : |b.value - q| ≤ q - a := by
    rw [abs_le]
    constructor <;> linarith
  constructor
  · linarith
  · intro hx
    refine h.even b hb (hx ▸ hab.ne') (le_antisymm ?_ hdist)
    rw [hx] at hfar ⊢
    linarith

end IsNearest

/-- The opposite of the least positive number. -/
def negLeast : Double := ⟨true, 1, -1074⟩

theorem isInFormat_negLeast : negLeast.IsInFormat :=
  ⟨by norm_num [negLeast], le_rfl, by norm_num [negLeast], .inr rfl⟩

theorem value_negLeast : negLeast.value = -least := by
  simp [value, magnitude, negLeast, least]

/-- **What is rounded to a number that is not negative**: zero, what is above it, and what is at
most half of the least number below it. -/
theorem IsNearest.value_nonneg_iff (h : IsNearest q x) : 0 ≤ x.value ↔ -(least / 2) ≤ q := by
  have hpos := least_pos
  constructor
  · intro hx
    by_contra hq
    have hlt : x.value < 0 := h.lt_of_lt_middle isInFormat_negLeast
      (by rw [value_negLeast]; linarith) (by rw [value_negLeast]; linarith)
    linarith
  · intro hq
    by_contra hx
    rw [not_le] at hx
    have hmagnitude : x.magnitude = -x.value := by rw [← abs_value, abs_of_neg hx]
    have hleast : least ≤ x.magnitude :=
      (magnitude_eq_zero_or h.isInFormat).resolve_left (by linarith)
    obtain ⟨hle, heven⟩ : -least ≤ x.value ∧ (x.value = -least → x.significand % 2 = 0) :=
      h.le_of_middle_le (isInFormat_zero false)
        (by rw [value_zero]; linarith) (by rw [value_zero]; linarith)
    -- So it is the neighbour of zero, whose significand is odd.
    have hvalue : x.value = -least := by linarith
    have hodd : (x.significand : ℚ) ≤ 1 := by
      have hgrid := significand_mul_least_le h.isInFormat
      rw [hmagnitude, hvalue, neg_neg] at hgrid
      exact le_of_mul_le_mul_right (by linarith) hpos
    have hone : x.significand ≤ 1 := by exact_mod_cast hodd
    have hne : x.significand ≠ 0 := by
      intro hzero
      rw [magnitude, hzero, Nat.cast_zero, zero_mul] at hleast
      linarith
    have hmod := heven hvalue
    omega

end Double

/-! ### Literals -/

namespace Literal

theorem rational?_decimal (isNegative : Bool) (digits : ℕ) (power : ℤ) :
    (decimal isNegative digits power).rational? =
      some ((if isNegative then -1 else 1) * (digits * (10 : ℚ) ^ power)) := by
  rw [rational?, mul_assoc]

/-- A number is below the power of ten of its length. -/
theorem lt_pow_length (n : ℕ) : n < 10 ^ (Text.ofNat n).length := by
  have h := digitsValue_lt (isDigit_ofNat n)
  rwa [digitsValue_ofNat] at h

theorem ten_pow_lt_half_least : (10 : ℚ) ^ (-331 : ℤ) < Double.least / 2 := by
  have hpow : (2 : ℚ) ^ 1075 < 10 ^ 331 :=
    calc (2 : ℚ) ^ 1075 = (2 ^ 43) ^ 25 := by rw [← pow_mul]
      _ < (10 ^ 13) ^ 25 := by
        refine pow_lt_pow_left₀ ?_ ?_ ?_ <;> norm_num
      _ = 10 ^ 325 := by rw [← pow_mul]
      _ ≤ 10 ^ 331 := pow_le_pow_right₀ (by norm_num) (by norm_num)
  have hhalf : Double.least / 2 = (2 ^ 1075)⁻¹ := by
    rw [Double.least, zpow_neg, zpow_ofNat, div_eq_mul_inv, ← mul_inv, ← pow_succ]
  rw [hhalf, zpow_neg, zpow_ofNat]
  exact inv_strictAnti₀ (by positivity) hpow

/-- **A literal stands for the number nearest to what it says.** -/
theorem isNearest_of_toDouble? {l : Literal} {v : ℚ} {x : Double} (hv : l.rational? = some v)
    (hx : l.toDouble? = some x) : Double.IsNearest v x := by
  cases l with
  | infinite isNegative => cases hv
  | notANumber => cases hv
  | decimal isNegative digits power =>
    rw [rational?_decimal, Option.some.injEq] at hv
    subst hv
    unfold toDouble? at hx
    dsimp only at hx
    split_ifs at hx with hzero hlarge hwhole
    · cases hx
      have hten : (0 : ℚ) < 10 ^ power := by positivity
      refine Double.isNearest_zero isNegative (mul_nonneg digits.cast_nonneg hten.le) ?_
      obtain hdigits | hplace := hzero
      · rw [hdigits, Nat.cast_zero, zero_mul]
        exact half_pos Double.least_pos
      · have hdigits : (digits : ℚ) < 10 ^ (Text.ofNat digits).length := by
          exact_mod_cast lt_pow_length digits
        calc digits * (10 : ℚ) ^ power
            < 10 ^ (Text.ofNat digits).length * 10 ^ power := mul_lt_mul_of_pos_right hdigits hten
          _ = (10 : ℚ) ^ ((Text.ofNat digits).length + power) := by
              rw [zpow_add₀ (by norm_num), zpow_natCast]
          _ ≤ (10 : ℚ) ^ (-331 : ℤ) := zpow_le_zpow_right₀ (by norm_num) (by omega)
          _ < Double.least / 2 := ten_pow_lt_half_least
    · have h := Double.isNearest_of_ofRatio? one_ne_zero hx
      obtain ⟨k, rfl⟩ := Int.eq_ofNat_of_zero_le hwhole
      rw [Nat.cast_one, div_one, Int.toNat_natCast, Nat.pow_eq] at h
      push_cast at h
      rwa [zpow_natCast]
    · have hpow : Nat.pow 10 (-power).toNat ≠ 0 := (Nat.pow_pos (by norm_num)).ne'
      have h := Double.isNearest_of_ofRatio? hpow hx
      obtain ⟨k, rfl⟩ : ∃ k : ℕ, power = -k := ⟨(-power).toNat, by omega⟩
      rw [neg_neg, Int.toNat_natCast, Nat.pow_eq] at h
      push_cast at h
      rwa [zpow_neg, zpow_natCast, ← div_eq_mul_inv]

end Literal

end MetricsBridge
