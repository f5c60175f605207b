import Mathlib
import MetricsBridge.Time.Calendar

/-!
# Counting days

The days up to a date are those of the years before it, those of the months before it in its year,
and those before it in its month (`Date.dayNumber`).  The closed form that counts from 1970 agrees
with this sum (`sinceEpoch_eq`).  In years of four digits it stays below four million days
(`abs_sinceEpoch_lt`).
-/
namespace MetricsBridge

/-- The number of days of a year. -/
def daysInYear (year : Nat) : Nat :=
  ∑ month ∈ Finset.Icc 1 12, daysInMonth year month

namespace Date

/-- The number of days before a date, from 0000-01-01 on. -/
def dayNumber (d : Date) : Nat :=
  ∑ year ∈ Finset.range d.year, daysInYear year
    + ∑ month ∈ Finset.Ico 1 d.month, daysInMonth d.year month + (d.day - 1)

/-- The first of January 1970. -/
def epoch : Date := ⟨1970, 1, 1⟩

theorem daysInYear_eq (year : Nat) : daysInYear year = if isLeapYear year then 366 else 365 := by
  have hmonths : Finset.Icc 1 12 = {1, 2, 3, 4, 5, 6, 7, 8, 9, 10, 11, 12} := rfl
  rw [daysInYear, hmonths]
  by_cases hleap : isLeapYear year = true
  · simp [daysInMonth, hleap]
  · simp [daysInMonth, hleap]

/-- One year more is so many days more. -/
theorem daysBeforeYear_succ (year : Nat) :
    daysBeforeYear (year + 1) = daysBeforeYear year + daysInYear year := by
  rw [daysInYear_eq]
  cases year with
  | zero => rfl
  | succ past =>
    -- A quotient goes up by one at the multiples of its divisor.
    have h4 := Nat.succ_div (a := past) (b := 4)
    have h100 := Nat.succ_div (a := past) (b := 100)
    have h400 := Nat.succ_div (a := past) (b := 400)
    have hle : past / 100 ≤ past / 4 := Nat.div_le_div_left (by norm_num) (by norm_num)
    have hdvd : 100 ∣ past + 1 → 4 ∣ past + 1 := fun h => Dvd.dvd.trans (by norm_num) h
    have hdvd' : 400 ∣ past + 1 → 100 ∣ past + 1 := fun h => Dvd.dvd.trans (by norm_num) h
    simp only [daysBeforeYear, isLeapYear, Nat.add_sub_cancel, Nat.add_one_ne_zero, if_false,
      Bool.and_eq_true, Bool.or_eq_true, decide_eq_true_eq, ← Nat.dvd_iff_mod_eq_zero, ne_eq]
    rw [h4, h100, h400]
    generalize past / 4 = fours at hle
    generalize past / 100 = hundreds at hle
    generalize past / 400 = quads
    by_cases hquad : 400 ∣ past + 1
    · have hhundred := hdvd' hquad
      have hfour := hdvd hhundred
      simp only [hquad, hhundred, hfour, if_true, not_true_eq_false, or_true, and_true]
      omega
    · by_cases hhundred : 100 ∣ past + 1
      · have hfour := hdvd hhundred
        simp only [hquad, hhundred, hfour, if_true, if_false, not_true_eq_false, or_false,
          and_false]
        omega
      · by_cases hfour : 4 ∣ past + 1
        · simp only [hquad, hhundred, hfour, if_true, if_false, not_false_eq_true, true_or,
            and_true]
          omega
        · simp only [hquad, hhundred, hfour, if_false, not_false_eq_true, true_or, false_and]
          omega

theorem daysBeforeYear_eq (year : Nat) :
    daysBeforeYear year = ∑ y ∈ Finset.range year, daysInYear y := by
  induction year with
  | zero => rfl
  | succ year ih => rw [daysBeforeYear_succ, Finset.sum_range_succ, ih]

theorem daysBeforeMonth_eq (year month : Nat) :
    daysBeforeMonth year month = ∑ m ∈ Finset.Ico 1 month, daysInMonth year m := by
  have hshift : ∑ m ∈ Finset.Ico 1 month, daysInMonth year m =
      ∑ m ∈ Finset.range (month - 1), daysInMonth year (m + 1) := by
    rw [Finset.sum_Ico_eq_sum_range]
    simp only [Nat.add_comm 1]
  rw [hshift]
  rfl

theorem dayNumber_eq (d : Date) :
    d.dayNumber = daysBeforeYear d.year + daysBeforeMonth d.year d.month + (d.day - 1) := by
  rw [daysBeforeYear_eq, daysBeforeMonth_eq, dayNumber]

theorem dayNumber_epoch : epoch.dayNumber = 719528 := by
  rw [dayNumber_eq]
  norm_num [epoch, daysBeforeYear, daysBeforeMonth]

/-- **The days since 1970** are counted by the lengths of years and months. -/
theorem sinceEpoch_eq {d : Date} (h : d.exists? = true) :
    d.sinceEpoch = (d.dayNumber : ℤ) - epoch.dayNumber := by
  have hday : 1 ≤ d.day := of_decide_eq_true (Bool.and_eq_true_iff.mp h).1
  have hnumber := dayNumber_eq d
  rw [← Nat.add_sub_assoc hday] at hnumber
  rw [sinceEpoch, ← hnumber, dayNumber_epoch, Nat.cast_ofNat]

/-! ### Bounds -/

theorem daysInMonth_le (year month : Nat) : daysInMonth year month ≤ 31 := by
  unfold daysInMonth
  split <;> grind

/-- A month with a day in it is one of twelve. -/
theorem month_le_of_exists {d : Date} (h : d.exists? = true) : d.month ≤ 12 ∧ d.day ≤ 31 := by
  obtain ⟨hfirst, hlast⟩ := Bool.and_eq_true_iff.mp h
  have hfirst := of_decide_eq_true hfirst
  have hlast := of_decide_eq_true hlast
  refine ⟨?_, hlast.trans (daysInMonth_le _ _)⟩
  by_contra hmonth
  have hnone : daysInMonth d.year d.month = 0 := by
    unfold daysInMonth
    split <;> grind
  omega

theorem daysBeforeMonth_le (year month : Nat) :
    daysBeforeMonth year month ≤ (month - 1) * 31 := by
  rw [daysBeforeMonth_eq]
  calc ∑ m ∈ Finset.Ico 1 month, daysInMonth year m
      ≤ (Finset.Ico 1 month).card • 31 :=
        Finset.sum_le_card_nsmul _ _ _ fun m _ => daysInMonth_le year m
    _ = (month - 1) * 31 := by rw [Nat.card_Ico, smul_eq_mul]

theorem daysBeforeYear_le (year : Nat) : daysBeforeYear year ≤ 366 * year := by
  unfold daysBeforeYear
  split_ifs
  · omega
  · dsimp only
    omega

/-- **The days of years of four digits.** -/
theorem abs_sinceEpoch_lt {d : Date} (h : d.exists? = true) (hyear : d.year < 10000) :
    |d.sinceEpoch| < 4000000 := by
  obtain ⟨hmonth, hday⟩ := month_le_of_exists h
  have hyears := daysBeforeYear_le d.year
  have hmonths := daysBeforeMonth_le d.year d.month
  rw [abs_lt, sinceEpoch]
  omega

end Date

end MetricsBridge
