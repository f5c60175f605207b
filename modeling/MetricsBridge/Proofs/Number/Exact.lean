import Mathlib
import MetricsBridge.Proofs.Number.Scientific

/-!
# The number that a literal says

Before any rounding a literal says a number exactly (`Literal.rational?`), and a decimal literal
says what it writes (`Scientific.denotes`).  So do integers, also with digits behind a point
(`denotes_ofInt`, `denotes_ofInt_point`).
-/
namespace MetricsBridge

/-- The number that a literal says, if it says a finite one. -/
def Literal.rational? : Literal → Option ℚ
  | .decimal isNegative digits power =>
    some ((if isNegative then -1 else 1) * digits * 10 ^ power)
  | .infinite _ => none
  | .notANumber => none

/-- The text is a literal that says the number. -/
def Denotes (t : Text) (x : ℚ) : Prop :=
  (Literal.parse? t).bind Literal.rational? = some x

theorem Denotes.unique {t : Text} {x y : ℚ} (hx : Denotes t x) (hy : Denotes t y) : x = y :=
  Option.some.inj (hx.symm.trans hy)

theorem Denotes.iff_eq {t : Text} {x : ℚ} (h : Denotes t x) {y : ℚ} : Denotes t y ↔ x = y :=
  ⟨h.unique, fun hxy => hxy ▸ h⟩

/-! ### Literals -/

/-- **A decimal literal says the number that it writes.** -/
theorem Scientific.denotes (s : Scientific) : Denotes s.text s.value := by
  rw [Denotes, Literal.parse?_text, Option.bind_some, Literal.rational?, Option.some.injEq]
  have hpow : (10 : ℚ) ^ s.places.length ≠ 0 := by positivity
  rw [value, digitsValue_append, zpow_sub₀ (by norm_num), zpow_natCast]
  push_cast
  field_simp

section Literals

variable {c : Char} {t whole fraction : Text} {isNegative : Bool}

/-- The sign of a negative number. -/
def minus (isNegative : Bool) : Text :=
  if isNegative then ['-'] else []

theorem exists_minus_eq_text (isNegative : Bool) :
    ∃ sign : Sign, minus isNegative = sign.text ∧ sign.isNegative = isNegative := by
  cases isNegative with
  | false => exact ⟨.omitted, rfl, rfl⟩
  | true => exact ⟨.minus, rfl, rfl⟩

/-- A literal that starts with a digit is a decimal. -/
theorem parse?_of_isDigit (hc : isDigit c = true) :
    Literal.parse? (minus isNegative ++ c :: t) = Literal.decimal? isNegative (c :: t) := by
  obtain ⟨sign, hminus, rfl⟩ := exists_minus_eq_text isNegative
  have hhead : ∀ d ∈ (c :: t).head?, d ≠ '-' ∧ d ≠ '+' := by
    rintro d ⟨⟩
    exact Literal.ne_sign_of_isDigit hc
  have hsplit := Literal.splitSign_text sign hhead
  rw [hminus, Literal.parse?_of_not_mem_words, hsplit]
  rw [hsplit]
  exact Literal.toLowerAscii_not_mem_words (isAlpha_eq_false_of_isDigit hc)

/-- **Digits with a sign, and a point or none, say the number that they write.** -/
theorem denotes_whole (isNegative : Bool) (hne : whole ≠ [])
    (hwhole : ∀ c ∈ whole, isDigit c = true) :
    Denotes (minus isNegative ++ whole) ((if isNegative then -1 else 1) * digitsValue whole) := by
  obtain ⟨sign, hminus, rfl⟩ := exists_minus_eq_text isNegative
  have hfraction : ∀ c ∈ (none : Option Text).getD [], isDigit c = true := by
    rintro c ⟨⟩
  have h := Scientific.denotes ⟨sign, whole, none, none, hwhole, hfraction, fun h => hne h.1⟩
  rw [hminus]
  simpa [Scientific.text, Scientific.point, Scientific.tail, Scientific.value, Scientific.places,
    Scientific.exponent, digitsValue] using h

theorem denotes_point (isNegative : Bool) (hne : whole ≠ [])
    (hwhole : ∀ c ∈ whole, isDigit c = true) (hfraction : ∀ c ∈ fraction, isDigit c = true) :
    Denotes (minus isNegative ++ (whole ++ '.' :: fraction)) ((if isNegative then -1 else 1) *
      (digitsValue whole + digitsValue fraction / 10 ^ fraction.length)) := by
  obtain ⟨sign, hminus, rfl⟩ := exists_minus_eq_text isNegative
  have h := Scientific.denotes
    ⟨sign, whole, some fraction, none, hwhole, hfraction, fun h => hne h.1⟩
  rw [hminus]
  simpa [Scientific.text, Scientific.point, Scientific.tail, Scientific.value, Scientific.places,
    Scientific.exponent] using h

/-- The sign of an integer as a factor. -/
theorem sign_mul_natAbs (i : ℤ) : (if i < 0 then -1 else 1) * (i.natAbs : ℚ) = i := by
  rw [Nat.cast_natAbs]
  split_ifs with h
  · rw [abs_of_neg h]
    simp
  · rw [abs_of_nonneg (Int.not_lt.mp h)]
    simp

/-- An integer is written as the digits of its absolute value behind its sign. -/
theorem ofInt_eq (i : ℤ) : Text.ofInt i = minus (decide (i < 0)) ++ Text.ofNat i.natAbs := by
  cases i with
  | ofNat n =>
    have hsign : decide (Int.ofNat n < 0) = false := decide_eq_false (Int.not_lt.mpr n.cast_nonneg)
    rw [hsign]
    rfl
  | negSucc n =>
    have hsign : decide (Int.negSucc n < 0) = true := decide_eq_true (Int.negSucc_lt_zero n)
    rw [hsign]
    rfl

theorem ofNat_ne_nil (n : Nat) : Text.ofNat n ≠ [] :=
  Nat.toDigits_ne_nil

theorem denotes_ofInt (i : ℤ) : Denotes (Text.ofInt i) i := by
  have h := denotes_whole (decide (i < 0)) (ofNat_ne_nil i.natAbs) (isDigit_ofNat _)
  rw [ofInt_eq]
  rw [digitsValue_ofNat] at h
  simpa only [decide_eq_true_eq, sign_mul_natAbs] using h

/-- **Digits behind the point of an integer** take it further away from zero. -/
theorem denotes_ofInt_point (i : ℤ) (hfraction : ∀ c ∈ fraction, isDigit c = true) :
    Denotes (Text.ofInt i ++ '.' :: fraction)
      (i + (if i < 0 then -1 else 1) * (digitsValue fraction / 10 ^ fraction.length)) := by
  have h := denotes_point (decide (i < 0)) (ofNat_ne_nil i.natAbs) (isDigit_ofNat _)
    hfraction
  rw [ofInt_eq, List.append_assoc]
  rw [digitsValue_ofNat, mul_add] at h
  simpa only [decide_eq_true_eq, sign_mul_natAbs] using h

end Literals

end MetricsBridge
