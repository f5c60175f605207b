import Mathlib
import MetricsBridge.Backend.Options
import MetricsBridge.Proofs.Number.Exact
import MetricsBridge.Proofs.Time.Rfc3339

/-!
# Timestamps in Unix seconds

The seconds of an instant and its milliseconds are written one behind the other.  The seconds are
rounded down, and the milliseconds count from there; yet what stands behind the point of a negative
number takes it down further, and in a leap second the milliseconds have four digits.  So what is
written is the instant, rounded down to a millisecond, exactly where it is in no leap second, and is
not before 1970 or has no milliseconds (`timestamp_denotes_iff`).
-/
namespace MetricsBridge

open Rfc3339

namespace Timestamp

variable {i : Instant}

theorem denotes_render_of_lt (h : i.nanos < 1000000000) : Denotes (render i)
    (i.seconds + (if i.seconds < 0 then -1 else 1) * ((i.nanos / 1000000 : ℕ) / 1000)) := by
  have hmillis : i.nanos / 1000000 < 10 ^ 3 := by omega
  unfold render
  dsimp only
  by_cases hzero : i.nanos / 1000000 = 0
  · rw [if_pos hzero, hzero]
    simpa using denotes_ofInt i.seconds
  · have hpoint := denotes_ofInt_point i.seconds (isDigit_ofNatPadded 3 (i.nanos / 1000000))
    rw [digitsValue_ofNatPadded, length_ofNatPadded (by norm_num) hmillis] at hpoint
    rw [if_neg hzero]
    norm_num at hpoint ⊢
    exact hpoint

/-- A number of four digits needs no zeros. -/
theorem length_ofNatPadded_of_four {n : Nat} (hle : 1000 ≤ n) (hlt : n < 10000) :
    (Text.ofNatPadded 3 n).length = 4 := by
  have hmost : (Text.ofNat n).length ≤ 4 :=
    (Nat.length_toDigits_le_iff (by norm_num) (by norm_num)).mpr hlt
  have hleast : ¬ (Text.ofNat n).length ≤ 3 := fun h =>
    absurd ((Nat.length_toDigits_le_iff (by norm_num) (by norm_num)).mp h) (by omega)
  simp only [Text.ofNatPadded, List.length_append, List.length_replicate]
  omega

theorem denotes_render_of_leap (hle : 1000000000 ≤ i.nanos) (hlt : i.nanos < 2000000000) :
    Denotes (render i)
      (i.seconds + (if i.seconds < 0 then -1 else 1) * ((i.nanos / 1000000 : ℕ) / 10000)) := by
  have hzero : i.nanos / 1000000 ≠ 0 := by omega
  have hpoint := denotes_ofInt_point i.seconds (isDigit_ofNatPadded 3 (i.nanos / 1000000))
  rw [digitsValue_ofNatPadded, length_ofNatPadded_of_four (by omega) (by omega)] at hpoint
  unfold render
  dsimp only
  rw [if_neg hzero]
  norm_num at hpoint ⊢
  exact hpoint

/-- What is written of a leap second is not its instant. -/
theorem not_denotes_of_leap {s : Stamp} (h : s.leap = 1) :
    ¬ Denotes (render s.reading) (⌊1000 * s.instant⌋ / 1000) := by
  intro hdenotes
  have hquotient := s.nanos_reading_div
  have hlt := s.millis_lt
  rw [h] at hquotient
  have hrender := denotes_render_of_leap (i := s.reading) (by omega) (by omega)
  have heq := hdenotes.unique hrender
  rw [s.floor_instant, h, hquotient] at heq
  have hnonneg : (0 : ℚ) ≤ s.millis := Nat.cast_nonneg _
  push_cast at heq
  split_ifs at heq
  · linarith
  · linarith

/-- What is written of another second is its instant if it is not before 1970, or has no
milliseconds. -/
theorem denotes_iff_of_not_leap {s : Stamp} (h : s.leap = 0) :
    Denotes (render s.reading) (⌊1000 * s.instant⌋ / 1000) ↔
      0 ≤ s.instant ∨ (1000 : ℤ) ∣ ⌊1000 * s.instant⌋ := by
  have hquotient := s.nanos_reading_div
  have hlt := s.millis_lt
  rw [h] at hquotient
  have hrender := denotes_render_of_lt (i := s.reading) (by omega)
  have hfloor := s.floor_instant
  rw [h, Nat.cast_zero, add_zero] at hfloor
  have hdvd : (1000 : ℤ) ∣ ⌊1000 * s.instant⌋ ↔ s.millis = 0 := by omega
  have hvalue : ((⌊1000 * s.instant⌋ : ℤ) : ℚ) / 1000 = s.reading.seconds + s.millis / 1000 := by
    rw [hfloor]
    push_cast
    ring
  rw [hquotient] at hrender
  rw [s.instant_nonneg_iff h, hdvd, hvalue]
  constructor
  · intro hdenotes
    have heq := hdenotes.unique hrender
    by_contra hneither
    rw [not_or] at hneither
    obtain ⟨hneg, hmillis⟩ := hneither
    have hpos : (0 : ℚ) < s.millis := by exact_mod_cast Nat.pos_of_ne_zero hmillis
    rw [if_pos (Int.not_le.mp hneg)] at heq
    push_cast at heq
    linarith
  · rintro (hnonneg | hzero)
    · rw [if_neg (Int.not_lt.mpr hnonneg)] at hrender
      simpa using hrender
    · rw [hzero] at hrender ⊢
      simpa using hrender

/-- Every timestamp is written as a number. -/
theorem exists_denotes_render (s : Stamp) : ∃ x, Denotes (render s.reading) x := by
  have hquotient := s.nanos_reading_div
  have hlt := s.millis_lt
  by_cases hleap : s.second = 60
  · have hone : s.leap = 1 := if_pos hleap
    exact ⟨_, denotes_render_of_leap (by omega) (by omega)⟩
  · have hnone : s.leap = 0 := if_neg hleap
    exact ⟨_, denotes_render_of_lt (by omega)⟩

theorem denotes_render_iff (s : Stamp) :
    Denotes (render s.reading) (⌊1000 * s.instant⌋ / 1000) ↔
      s.second < 60 ∧ (0 ≤ s.instant ∨ (1000 : ℤ) ∣ ⌊1000 * s.instant⌋) := by
  have hle := s.second_le
  by_cases hleap : s.second = 60
  · have hnot := not_denotes_of_leap (if_pos hleap : s.leap = 1)
    constructor
    · intro h
      exact absurd h hnot
    · intro h
      omega
  · have hlt : s.second < 60 := by omega
    rw [and_iff_right hlt]
    exact denotes_iff_of_not_leap (if_neg hleap)

end Timestamp

/-- **What a timestamp is sent as.**  The texts that are read as RFC 3339 timestamps are those of
timestamps, and each of them is sent as a number.  It is the instant in seconds since 1970, rounded
down to a whole millisecond, exactly if the timestamp is in no leap second, and is not before 1970
or has no milliseconds. -/
theorem timestamp_denotes_iff (input : Text) :
    ((parse? (Text.trim input)).isSome = true ↔ ∃ s : Stamp, Text.trim input = s.text) ∧
    ∀ s : Stamp, Text.trim input = s.text → ∃ out x, checkTime input = .ok out ∧ Denotes out x ∧
      (x = ⌊1000 * s.instant⌋ / 1000 ↔
        s.second < 60 ∧ (0 ≤ s.instant ∨ (1000 : ℤ) ∣ ⌊1000 * s.instant⌋)) := by
  constructor
  · rw [Option.isSome_iff_exists]
    constructor
    · rintro ⟨i, hi⟩
      obtain ⟨s, hs, -⟩ := parse?_eq_some.mp hi
      exact ⟨s, hs⟩
    · rintro ⟨s, hs⟩
      exact ⟨s.reading, parse?_eq_some.mpr ⟨s, hs, rfl⟩⟩
  · intro s hs
    obtain ⟨x, hx⟩ := Timestamp.exists_denotes_render s
    have hcheck : checkTime input = .ok (Timestamp.render s.reading) := by
      rw [checkTime, Timestamp.normalize?, hs, parse?_text]
    refine ⟨Timestamp.render s.reading, x, hcheck, hx, ?_⟩
    rw [← hx.iff_eq]
    exact Timestamp.denotes_render_iff s

/-- Half a second before 1970. -/
def eve : Stamp where
  date := ⟨1969, 12, 31⟩
  mark := 'T'
  hour := 23
  minute := 59
  second := 59
  fraction := "500".toList
  zone := .utc 'Z' (.inl rfl)
  year_lt := by norm_num
  isDate := rfl
  isMark := .inl rfl
  hour_le := by norm_num
  minute_le := by norm_num
  second_le := by norm_num
  isFraction := List.all_eq_true.mp rfl

/-- Half a second before 1970 is sent as one second and a half. -/
theorem timestamp_denotes_iff_of_eve :
    checkTime "1969-12-31T23:59:59.500Z".toList = .ok "-1.500".toList ∧ eve.instant = -1 / 2 ∧
      ∃ x, Denotes "-1.500".toList x ∧ x ≠ -1 / 2 := by
  have hcheck : checkTime "1969-12-31T23:59:59.500Z".toList = .ok "-1.500".toList := by
    decide +kernel
  have htext : Text.trim "1969-12-31T23:59:59.500Z".toList = eve.text := by decide +kernel
  have hinstant : eve.instant = -1 / 2 := by
    have hreading : eve.reading = ⟨-1, 500000000⟩ := by decide +kernel
    have hvalue : digitsValue eve.fraction = 500 := rfl
    have hlength : eve.fraction.length = 3 := rfl
    have hleap : eve.leap = 0 := rfl
    rw [eve.instant_eq, hreading, hvalue, hlength, hleap]
    norm_num
  have hfloor : ⌊1000 * eve.instant⌋ = -500 := by
    rw [hinstant]
    norm_num
  obtain ⟨out, x, hout, hx, hiff⟩ := (timestamp_denotes_iff _).2 eve htext
  rw [hcheck, Except.ok.injEq] at hout
  subst hout
  refine ⟨hcheck, hinstant, x, hx, ?_⟩
  rw [hfloor, hinstant] at hiff
  intro hhalf
  have hfalse := hiff.mp (by rw [hhalf]; norm_num)
  norm_num at hfalse

end MetricsBridge
