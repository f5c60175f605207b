import Mathlib
import MetricsBridge.Proofs.Number.Rendering

/-!
# Runs of digits

A run of so many digits writes a number below that power of ten (`digitsValue_lt`), and a number
below it is written by one run of that length, in which it is filled up with zeros in front
(`eq_ofNatPadded`).
-/
namespace MetricsBridge

/-! ### Digits and letters -/

theorem isDigit_eq_false_of_isAlpha {c : Char} (h : c.isAlpha = true) : isDigit c = false := by
  have h0 : '0'.val.toNat = 48 := rfl
  have h9 : '9'.val.toNat = 57 := rfl
  have hA : 'A'.val.toNat = 65 := rfl
  have ha : 'a'.val.toNat = 97 := rfl
  simp only [Char.isAlpha, Char.isUpper, Char.isLower, Bool.or_eq_true, Bool.and_eq_true,
    decide_eq_true_eq, ge_iff_le, UInt32.le_iff_toNat_le] at h
  simp only [isDigit, Bool.and_eq_false_iff, decide_eq_false_iff_not, Char.le_def,
    UInt32.le_iff_toNat_le]
  omega

theorem isAlpha_eq_false_of_isDigit {c : Char} (h : isDigit c = true) : c.isAlpha = false := by
  by_contra halpha
  rw [Bool.not_eq_false] at halpha
  rw [isDigit_eq_false_of_isAlpha halpha] at h
  exact Bool.false_ne_true h

/-! ### Values -/

theorem digitsValue_eq (t : Text) : digitsValue t = Nat.ofDigitChars 10 t 0 := rfl

theorem ofDigitChars_eq (t : Text) (init : Nat) :
    Nat.ofDigitChars 10 t init = init * 10 ^ t.length + digitsValue t := by
  induction t generalizing init with
  | nil => simp [digitsValue]
  | cons c t ih =>
    rw [digitsValue_eq, Nat.ofDigitChars_cons, Nat.ofDigitChars_cons, ih, ih (10 * 0 + _),
      List.length_cons, pow_succ]
    ring

/-- Digits in front count for more. -/
theorem digitsValue_append (a b : Text) :
    digitsValue (a ++ b) = digitsValue a * 10 ^ b.length + digitsValue b := by
  rw [digitsValue_eq, Nat.ofDigitChars_append, ofDigitChars_eq]
  rfl

theorem digitsValue_cons (c : Char) (t : Text) :
    digitsValue (c :: t) = digitValue c * 10 ^ t.length + digitsValue t := by
  have hone : digitsValue [c] = digitValue c := by simp [digitsValue]
  rw [← hone, ← digitsValue_append, List.singleton_append]

theorem digitValue_lt {c : Char} (h : isDigit c = true) : digitValue c < 10 := by
  have h0 : '0'.toNat = 48 := rfl
  have h9 : c.val ≤ '9'.val := by
    rw [isDigit, Bool.and_eq_true, decide_eq_true_iff, decide_eq_true_iff] at h
    exact h.2
  have hc : c.toNat ≤ 57 := UInt32.le_iff_toNat_le.mp h9
  rw [digitValue]
  omega

/-- So many digits write a number below the power of ten. -/
theorem digitsValue_lt {t : Text} (h : ∀ c ∈ t, isDigit c = true) :
    digitsValue t < 10 ^ t.length := by
  induction t with
  | nil => simp [digitsValue]
  | cons c t ih =>
    obtain ⟨hc, ht⟩ := List.forall_mem_cons.mp h
    have hlt := ih ht
    have hle : digitValue c * 10 ^ t.length ≤ 9 * 10 ^ t.length :=
      Nat.mul_le_mul_right _ (Nat.le_of_lt_succ (digitValue_lt hc))
    rw [digitsValue_cons, List.length_cons, pow_succ]
    omega

theorem digitsValue_ofNat (n : Nat) : digitsValue (Text.ofNat n) = n :=
  Nat.ofDigitChars_ten_toDigits

theorem digitsValue_zeros (k : Nat) (t : Text) :
    digitsValue (List.replicate k '0' ++ t) = digitsValue t := by
  have hzeros : digitsValue (List.replicate k '0') = 0 := by
    induction k with
    | zero => rfl
    | succ k ih =>
      rw [List.replicate_succ', digitsValue_append, ih]
      rfl
  rw [digitsValue_append, hzeros, Nat.zero_mul, Nat.zero_add]

theorem digitsValue_ofNatPadded (width n : Nat) : digitsValue (Text.ofNatPadded width n) = n := by
  unfold Text.ofNatPadded
  dsimp only
  rw [digitsValue_zeros, digitsValue_ofNat]

theorem isDigit_ofNatPadded (width n : Nat) :
    ∀ c ∈ Text.ofNatPadded width n, isDigit c = true := by
  intro c hc
  rcases List.mem_append.mp hc with hc | hc
  · rw [List.eq_of_mem_replicate hc]
    rfl
  · exact isDigit_ofNat n c hc

/-- A number that has no more digits than there is room for is filled up. -/
theorem length_ofNatPadded {width n : Nat} (hwidth : 0 < width) (hn : n < 10 ^ width) :
    (Text.ofNatPadded width n).length = width := by
  have hle : (Text.ofNat n).length ≤ width :=
    (Nat.length_toDigits_le_iff (by norm_num) hwidth).mpr hn
  simp only [Text.ofNatPadded, List.length_append, List.length_replicate]
  omega

theorem digitValue_inj {c d : Char} (hc : isDigit c = true) (hd : isDigit d = true)
    (h : digitValue c = digitValue d) : c = d := by
  have h0 : '0'.toNat = 48 := rfl
  have hzero : ∀ e, isDigit e = true → 48 ≤ e.toNat := fun e he =>
    UInt32.le_iff_toNat_le.mp (of_decide_eq_true (Bool.and_eq_true_iff.mp he).1)
  have hc0 := hzero c hc
  have hd0 := hzero d hd
  apply Char.toNat_inj.mp
  rw [digitValue, digitValue] at h
  omega

/-- Runs of as many digits that write the same number are the same. -/
theorem digitsValue_inj {a b : Text} (ha : ∀ c ∈ a, isDigit c = true)
    (hb : ∀ c ∈ b, isDigit c = true) (hlength : a.length = b.length)
    (h : digitsValue a = digitsValue b) : a = b := by
  induction a generalizing b with
  | nil => exact (List.eq_nil_of_length_eq_zero hlength.symm).symm
  | cons c a ih =>
    obtain ⟨d, b, rfl⟩ := List.exists_cons_of_length_eq_add_one hlength.symm
    obtain ⟨hc, ha⟩ := List.forall_mem_cons.mp ha
    obtain ⟨hd, hb⟩ := List.forall_mem_cons.mp hb
    have hlength' : a.length = b.length := Nat.succ.inj hlength
    -- The first digit is the quotient by the power of ten, and the others write the remainder.
    have hlt := digitsValue_lt ha
    have hlt' := digitsValue_lt hb
    rw [digitsValue_cons, digitsValue_cons, hlength'] at h
    rw [hlength'] at hlt
    have hpos : 0 < 10 ^ b.length := by positivity
    have hfirst : digitValue c = digitValue d := by
      have hdiv := congrArg (· / 10 ^ b.length) h
      simpa [Nat.add_div_of_dvd_right, Nat.div_eq_of_lt hlt, Nat.div_eq_of_lt hlt', hpos] using hdiv
    rw [hfirst, Nat.add_left_cancel_iff] at h
    rw [digitValue_inj hc hd hfirst, ih ha hb hlength' h]

/-- **A run of digits is its number**, filled up to its length. -/
theorem eq_ofNatPadded {t : Text} (hne : t ≠ []) (h : ∀ c ∈ t, isDigit c = true) :
    t = Text.ofNatPadded t.length (digitsValue t) := by
  refine digitsValue_inj h (isDigit_ofNatPadded _ _) ?_ (digitsValue_ofNatPadded _ _).symm
  exact (length_ofNatPadded (List.length_pos_of_ne_nil hne) (digitsValue_lt h)).symm

end MetricsBridge
