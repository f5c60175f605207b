import MetricsBridge.Proofs.Number.Finite
import MetricsBridge.Proofs.Text.Trim
import MetricsBridge.Proofs.Time.Timestamp

/-!
# The form in which times are sent

A time is sent as a number without blanks around it.  A number is never read as an RFC 3339
timestamp, because the fifth character of those is a dash (`literal_text_eq_none`), and what is
written for a timestamp is a number of the format's range (`isNumber_render`).  So a time in the
form in which it is sent is passed on as it is (`times_have_a_normal_form`).
-/
namespace MetricsBridge

open Rfc3339

/-- The text is a literal that stands for a finite number. -/
def IsNumber (t : Text) : Prop :=
  ∃ x, (Literal.parse? t).bind Literal.toDouble? = some x

theorem Denotes.isNumber {t : Text} {x : ℚ} (h : Denotes t x) (hx : |x| < 10 ^ 300) :
    IsNumber t := by
  obtain ⟨l, hl, hvalue⟩ := Option.bind_eq_some_iff.mp h
  obtain ⟨y, hy⟩ := Literal.exists_toDouble? hvalue hx
  exact ⟨y, Option.bind_eq_some_iff.mpr ⟨l, hl, hy⟩⟩

/-! ### The two notations -/

namespace Rfc3339

/-- **A timestamp is no number.** -/
theorem literal_text_eq_none (s : Stamp) : Literal.parse? s.text = none := by
  have hyear := isDigit_ofNatPadded 4 s.date.year
  have hlength : (Text.ofNatPadded 4 s.date.year).length = 4 :=
    length_ofNatPadded (by norm_num) s.year_lt
  rw [Stamp.text]
  generalize Text.ofNatPadded 4 s.date.year = year at hyear hlength
  generalize Text.ofNatPadded 2 s.date.month ++ _ = rest
  have hne : year ≠ [] := List.ne_nil_of_length_pos (by omega)
  have hdash : ∀ c ∈ ('-' :: rest).head?, isDigit c = false := by
    rintro c ⟨⟩
    rfl
  have htake := Text.takeWhile_run hyear hdash
  have hdrop := Text.dropWhile_run hyear hdash
  have hdecimal : Literal.decimal? false (year ++ '-' :: rest) = none := by
    unfold Literal.decimal?
    simp [htake, hdrop, hne, Text.lowerAscii]
  obtain ⟨c, digits, rfl⟩ := List.exists_cons_of_ne_nil hne
  have hparse : Literal.parse? (c :: digits ++ '-' :: rest) =
      Literal.decimal? false (c :: digits ++ '-' :: rest) :=
    @parse?_of_isDigit c (digits ++ '-' :: rest) false (hyear c List.mem_cons_self)
  rw [hparse, hdecimal]

theorem parse?_eq_none_of_isNumber {t : Text} (h : IsNumber t) : parse? t = none := by
  rw [Option.eq_none_iff_forall_ne_some]
  intro i hi
  obtain ⟨s, rfl, -⟩ := parse?_eq_some.mp hi
  obtain ⟨x, hx⟩ := h
  rw [literal_text_eq_none] at hx
  cases hx

namespace Zone

theorem abs_seconds_le (zone : Zone) : |zone.seconds| ≤ 86400 := by
  cases zone with
  | utc mark isMark => simp [seconds]
  | offset sign hours minutes isSign hours_le minutes_le =>
    rw [seconds, abs_le]
    split_ifs <;> omega

end Zone

/-- **The seconds of a timestamp** are fewer than a million million. -/
theorem Stamp.abs_seconds_lt (s : Stamp) : |s.reading.seconds| < 10 ^ 12 := by
  have hdays := abs_lt.mp (Date.abs_sinceEpoch_lt s.isDate s.year_lt)
  have hzone := abs_le.mp s.zone.abs_seconds_le
  have hhour := s.hour_le
  have hminute := s.minute_le
  have hsecond := s.second_le
  have hreading : s.reading.seconds = s.date.sinceEpoch * 86400
      + (s.hour * 3600 + s.minute * 60 + (s.second - s.leap : ℕ)) - s.zone.seconds := rfl
  rw [hreading, abs_lt]
  omega

end Rfc3339

/-! ### What is written -/

namespace Timestamp

/-- What stands behind the point is less than a second. -/
theorem exists_denotes_near (s : Stamp) :
    ∃ x, Denotes (render s.reading) x ∧ |x - s.reading.seconds| < 1 := by
  have hquotient := s.nanos_reading_div
  have hlt := s.millis_lt
  have hsign : ∀ {q : ℚ}, 0 ≤ q → q < 1 →
      |(s.reading.seconds + (if s.reading.seconds < 0 then -1 else 1) * q) - s.reading.seconds| <
        1 := by
    intro q hnonneg hone
    rw [add_sub_cancel_left]
    split_ifs <;> rw [abs_lt] <;> constructor <;> linarith
  by_cases hleap : s.second = 60
  · have hone : s.leap = 1 := if_pos hleap
    have hfour : ((s.reading.nanos / 1000000 : ℕ) : ℚ) < 10000 := by
      exact_mod_cast (by omega : s.reading.nanos / 1000000 < 10000)
    refine ⟨_, denotes_render_of_leap (by omega) (by omega), hsign (by positivity) ?_⟩
    rwa [div_lt_one (by norm_num)]
  · have hnone : s.leap = 0 := if_neg hleap
    have hthree : ((s.reading.nanos / 1000000 : ℕ) : ℚ) < 1000 := by
      exact_mod_cast (by omega : s.reading.nanos / 1000000 < 1000)
    refine ⟨_, denotes_render_of_lt (by omega), hsign (by positivity) ?_⟩
    rwa [div_lt_one (by norm_num)]

/-- **What is written for a timestamp is a number.** -/
theorem isNumber_render (s : Stamp) : IsNumber (render s.reading) := by
  obtain ⟨x, hx, hnear⟩ := exists_denotes_near s
  apply hx.isNumber
  have hseconds : |(s.reading.seconds : ℚ)| < 10 ^ 12 := by exact_mod_cast s.abs_seconds_lt
  have hsum : |x| ≤ |x - s.reading.seconds| + |(s.reading.seconds : ℚ)| := by
    simpa using abs_add_le (x - s.reading.seconds) (s.reading.seconds : ℚ)
  calc |x| < 10 ^ 13 := by linarith
    _ ≤ 10 ^ 300 := pow_le_pow_right₀ (by norm_num) (by norm_num)

theorem isBlank_of_isMark {c : Char} (h : Numeral.isMark c = true) : isBlank c = false := by
  have h0 : '0'.val.toNat = 48 := rfl
  have h9 : '9'.val.toNat = 57 := rfl
  have hc : c.toNat = c.val.toNat := rfl
  simp only [Numeral.isMark, Bool.or_eq_true, beq_iff_eq] at h
  rcases h with (((h | rfl) | rfl) | rfl) | rfl
  · simp only [isDigit, Bool.and_eq_true, decide_eq_true_eq, Char.le_def,
      UInt32.le_iff_toNat_le] at h
    simp [isBlank]
    omega
  all_goals rfl

theorem isTrimmed_render (i : Instant) : Text.IsTrimmed (render i) := by
  apply Text.isTrimmed_of_forall
  have hmark : ∀ c ∈ render i, Numeral.isMark c = true := by
    unfold render
    dsimp only
    split_ifs
    · exact isMark_ofInt i.seconds
    · rw [List.forall_mem_append, List.forall_mem_cons]
      exact ⟨isMark_ofInt i.seconds, rfl,
        fun c hc => isMark_of_isDigit (isDigit_ofNatPadded 3 _ c hc)⟩
  exact fun c hc => isBlank_of_isMark (hmark c hc)

/-! ### Normal forms -/

/-- A number without blanks around it is passed on as it is. -/
theorem normalize?_of_isNumber {t : Text} (htrim : Text.IsTrimmed t) (h : IsNumber t) :
    normalize? t = some t := by
  obtain ⟨x, hx⟩ := h
  unfold normalize?
  dsimp only
  rw [htrim.trim_eq, parse?_eq_none_of_isNumber ⟨x, hx⟩, hx]
  rfl

/-- **What becomes of a time**: a number without blanks around it. -/
theorem isNumber_of_normalize? {input out : Text} (h : normalize? input = some out) :
    Text.IsTrimmed out ∧ IsNumber out := by
  unfold normalize? at h
  dsimp only at h
  split at h
  · next i hi =>
    cases h
    obtain ⟨s, -, rfl⟩ := parse?_eq_some.mp hi
    exact ⟨isTrimmed_render s.reading, isNumber_render s⟩
  · split_ifs at h with hnumber
    cases h
    exact ⟨Text.isTrimmed_trim input, Option.isSome_iff_exists.mp hnumber⟩

/-- **What is a time**: but for the blanks around it, a timestamp or a number. -/
theorem exists_normalize?_iff {input : Text} : (∃ out, normalize? input = some out) ↔
    (∃ s : Stamp, Text.trim input = s.text) ∨ IsNumber (Text.trim input) := by
  constructor
  · rintro ⟨out, h⟩
    unfold normalize? at h
    dsimp only at h
    split at h
    · next i hi =>
      obtain ⟨s, hs, -⟩ := parse?_eq_some.mp hi
      exact .inl ⟨s, hs⟩
    · split_ifs at h with hnumber
      exact .inr (Option.isSome_iff_exists.mp hnumber)
  · rintro (⟨s, hs⟩ | hnumber)
    · exact ⟨render s.reading, by rw [normalize?, hs, parse?_text]⟩
    · have hsame := normalize?_of_isNumber (Text.isTrimmed_trim input) hnumber
      rw [normalize?, (Text.isTrimmed_trim input).trim_eq, ← normalize?] at hsame
      exact ⟨_, hsame⟩

end Timestamp

theorem checkTime_eq_ok {input out : Text} :
    checkTime input = .ok out ↔ Timestamp.normalize? input = some out := by
  unfold checkTime
  cases Timestamp.normalize? input <;> simp

theorem checkTime_eq_error {input : Text} {e : CallError} (h : checkTime input = .error e) :
    e = .invalidTime input := by
  unfold checkTime at h
  split at h
  · cases h
  · cases h
    rfl

/-- **Times have a normal form.**  What a time is sent as has no blanks around it, is a number of
the format's range and no RFC 3339 timestamp, and is sent as it is if it is given as a time again.
A text is refused if, but for the blanks around it, it is neither a timestamp nor a number, and the
error names it as it was given. -/
theorem times_have_a_normal_form (input : Text) :
    (∀ out, checkTime input = .ok out →
      Text.IsTrimmed out ∧ IsNumber out ∧ parse? out = none ∧ checkTime out = .ok out) ∧
    (∀ e, checkTime input = .error e → e = .invalidTime input) ∧
    ((∃ out, checkTime input = .ok out) ↔
      (∃ s : Stamp, Text.trim input = s.text) ∨ IsNumber (Text.trim input)) := by
  simp only [checkTime_eq_ok]
  refine ⟨?_, fun e h => checkTime_eq_error h, Timestamp.exists_normalize?_iff⟩
  intro out h
  obtain ⟨htrim, hnumber⟩ := Timestamp.isNumber_of_normalize? h
  exact ⟨htrim, hnumber, parse?_eq_none_of_isNumber hnumber,
    Timestamp.normalize?_of_isNumber htrim hnumber⟩

/-- A leap second at the end of a year, and a number with an exponent. -/
theorem times_have_a_normal_form_of_two :
    checkTime " 2016-12-31T23:59:60.500Z\n".toList = .ok "1483228799.1500".toList ∧
      IsNumber "1483228799.1500".toList ∧
      checkTime "1483228799.1500".toList = .ok "1483228799.1500".toList ∧
    checkTime "\u00A0-1.5E+3 ".toList = .ok "-1.5E+3".toList ∧
      checkTime "-1.5E+3".toList = .ok "-1.5E+3".toList ∧
    checkTime " 1e400 ".toList = .error (.invalidTime " 1e400 ".toList) := by
  have hleap : checkTime " 2016-12-31T23:59:60.500Z\n".toList = .ok "1483228799.1500".toList := by
    decide +kernel
  have hpower : checkTime "\u00A0-1.5E+3 ".toList = .ok "-1.5E+3".toList := by decide +kernel
  have hgreat : checkTime " 1e400 ".toList = .error (.invalidTime " 1e400 ".toList) := by
    decide +kernel
  obtain ⟨-, hnumber, -, hagain⟩ := (times_have_a_normal_form _).1 _ hleap
  obtain ⟨-, -, -, hagain'⟩ := (times_have_a_normal_form _).1 _ hpower
  exact ⟨hleap, hnumber, hagain, hpower, hagain', hgreat⟩

end MetricsBridge
