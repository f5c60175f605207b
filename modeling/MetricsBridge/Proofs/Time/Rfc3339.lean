import Mathlib
import MetricsBridge.Proofs.Number.Digits
import MetricsBridge.Proofs.Text.Split
import MetricsBridge.Proofs.Time.Calendar
import MetricsBridge.Time.Rfc3339

/-!
# How timestamps are written

A timestamp is a date and a time of day, with a fraction of the second if there is one, in a zone
(`Stamp`).  **A text is read as an instant exactly if it is that of a timestamp**
(`parse?_eq_some`), and the seconds and milliseconds that are read are those of the instant
(`floor_instant`).
-/
namespace MetricsBridge.Rfc3339

/-- A zone as it is written: that of UTC, or so many hours and minutes east or west of it. -/
inductive Zone where
  | utc (mark : Char) (isMark : mark = 'Z' ∨ mark = 'z')
  | offset (sign : Char) (hours minutes : Nat) (isSign : sign = '+' ∨ sign = '-' ∨ sign = '\u2212')
      (hours_le : hours ≤ 23) (minutes_le : minutes ≤ 59)

namespace Zone

def text : Zone → Text
  | utc mark _ => [mark]
  | offset sign hours minutes _ _ _ =>
    sign :: (Text.ofNatPadded 2 hours ++ ':' :: Text.ofNatPadded 2 minutes)

/-- How many seconds the clocks of the zone are ahead of UTC. -/
def seconds : Zone → ℤ
  | utc _ _ => 0
  | offset sign hours minutes _ _ _ =>
    (if sign = '+' then 1 else -1) * (hours * 3600 + minutes * 60)

end Zone

/-- A timestamp.  The sixtieth second of a minute is a leap second, and the fraction is the digits
behind the point, if there is one. -/
structure Stamp where
  date : Date
  mark : Char
  hour : Nat
  minute : Nat
  second : Nat
  fraction : Text
  zone : Zone
  year_lt : date.year < 10000
  isDate : date.exists? = true
  isMark : mark = 'T' ∨ mark = 't' ∨ mark = ' '
  hour_le : hour ≤ 23
  minute_le : minute ≤ 59
  second_le : second ≤ 60
  isFraction : ∀ c ∈ fraction, isDigit c = true

/-- The digits of a fraction behind a point, if there are any. -/
def fractionText (digits : Text) : Text :=
  if digits = [] then [] else '.' :: digits

/-- The nanoseconds of a fraction, of which nine digits are read. -/
def fractionNanos (digits : Text) : Nat :=
  digitsValue (digits.take 9) * Nat.pow 10 (9 - (digits.take 9).length)

namespace Stamp

def text (s : Stamp) : Text :=
  Text.ofNatPadded 4 s.date.year ++ '-' :: (Text.ofNatPadded 2 s.date.month
    ++ '-' :: (Text.ofNatPadded 2 s.date.day ++ s.mark :: (Text.ofNatPadded 2 s.hour
    ++ ':' :: (Text.ofNatPadded 2 s.minute ++ ':' :: (Text.ofNatPadded 2 s.second
    ++ (fractionText s.fraction ++ s.zone.text))))))

/-- The instant of a timestamp in seconds since 1970, in which a leap second is the first second of
the next minute. -/
def instant (s : Stamp) : ℚ :=
  ((s.date.dayNumber - Date.epoch.dayNumber) * 86400 + s.hour * 3600 + s.minute * 60 + s.second
    - s.zone.seconds : ℤ) + digitsValue s.fraction / 10 ^ s.fraction.length

/-- What is read of a timestamp: in a leap second the nanoseconds run on. -/
def reading (s : Stamp) : Instant :=
  let leap := if s.second = 60 then 1 else 0
  let ofDay : Int := s.hour * 3600 + s.minute * 60 + (s.second - leap : Nat)
  ⟨s.date.sinceEpoch * 86400 + ofDay - s.zone.seconds, fractionNanos s.fraction + leap * 1000000000⟩

end Stamp

/-! ### Pieces -/

section Pieces

variable {count n : Nat} {t rest : Text} {c : Char}

/-- So many digits are a number filled up to as many. -/
theorem digits?_eq_some (hcount : 0 < count) : digits? count t = some (n, rest) ↔
    n < 10 ^ count ∧ t = Text.ofNatPadded count n ++ rest := by
  unfold digits?
  dsimp only
  constructor
  · intro h
    split_ifs at h with hdigits
    obtain ⟨hlength, hall⟩ := hdigits
    simp only [Option.some.injEq, Prod.mk.injEq] at h
    obtain ⟨rfl, rfl⟩ := h
    have hdigits : ∀ c ∈ t.take count, isDigit c = true := List.all_eq_true.mp hall
    have hne : t.take count ≠ [] := List.ne_nil_of_length_pos (by omega)
    have hpadded := eq_ofNatPadded hne hdigits
    rw [hlength] at hpadded
    constructor
    · have hlt := digitsValue_lt hdigits
      rwa [hlength] at hlt
    · rw [← hpadded, List.take_append_drop]
  · rintro ⟨hn, rfl⟩
    have hlength := length_ofNatPadded hcount hn
    have htake : (Text.ofNatPadded count n ++ rest).take count = Text.ofNatPadded count n := by
      rw [List.take_append_of_le_length hlength.ge, List.take_of_length_le hlength.le]
    have hdrop : (Text.ofNatPadded count n ++ rest).drop count = rest := by
      rw [List.drop_append_of_le_length hlength.ge, List.drop_of_length_le hlength.le,
        List.nil_append]
    have hall : (Text.ofNatPadded count n).all isDigit = true :=
      List.all_eq_true.mpr (isDigit_ofNatPadded count n)
    rw [htake, hdrop, if_pos ⟨hlength, hall⟩, digitsValue_ofNatPadded]

theorem after?_eq_some : after? c t = some rest ↔ t = c :: rest := by
  cases t with
  | nil => simp [after?]
  | cons d t =>
    rw [after?]
    split_ifs with hd
    · simp [hd]
    · simp [hd]

/-- A fraction is a point with digits behind it, or nothing. -/
theorem exists_of_fraction? (h : fraction? t = some (n, rest)) : ∃ digits : Text,
    (∀ c ∈ digits, isDigit c = true) ∧ t = fractionText digits ++ rest ∧
      n = fractionNanos digits := by
  unfold fraction? at h
  split at h
  · next more =>
    dsimp only at h
    split_ifs at h with hnil
    cases h
    refine ⟨more.takeWhile isDigit, fun c hc => List.mem_takeWhile_imp hc, ?_, rfl⟩
    rw [fractionText, if_neg hnil, List.cons_append, List.takeWhile_append_dropWhile]
  · cases h
    exact ⟨[], by simp, rfl, rfl⟩

/-- What follows a fraction starts with neither a digit nor a point. -/
theorem fraction?_append (hdigits : ∀ c ∈ t, isDigit c = true)
    (hrest : ∀ c ∈ rest.head?, isDigit c = false ∧ c ≠ '.') :
    fraction? (fractionText t ++ rest) = some (fractionNanos t, rest) := by
  by_cases hnil : t = []
  · subst hnil
    rw [fractionText, if_pos rfl, List.nil_append]
    unfold fraction?
    split
    · next more => exact absurd rfl (hrest '.' rfl).2
    · rfl
  · have hhead : ∀ c ∈ rest.head?, isDigit c = false := fun c hc => (hrest c hc).1
    rw [fractionText, if_neg hnil, List.cons_append, fraction?]
    dsimp only
    rw [Text.takeWhile_run hdigits hhead, Text.dropWhile_run hdigits hhead, if_neg hnil]
    rfl

/-- The offset that stands behind a sign. -/
def offsetBehind (isWest : Bool) (t : Text) : Option ℤ := do
  let (hours, rest) ← digits? 2 t
  let rest ← after? ':' rest
  let (minutes, rest) ← digits? 2 rest
  if rest = [] ∧ hours ≤ 23 ∧ minutes ≤ 59 then
    let seconds : ℤ := hours * 3600 + minutes * 60
    some (if isWest then -seconds else seconds)
  else none

theorem offsetBehind_eq_some {isWest : Bool} {seconds : ℤ} :
    offsetBehind isWest t = some seconds ↔ ∃ hours minutes : Nat, hours ≤ 23 ∧ minutes ≤ 59 ∧
      t = Text.ofNatPadded 2 hours ++ ':' :: Text.ofNatPadded 2 minutes ∧
      seconds = (if isWest then -1 else 1) * (hours * 3600 + minutes * 60) := by
  unfold offsetBehind
  simp only [Option.bind_eq_bind, Option.bind_eq_some_iff, digits?_eq_some (by norm_num : 0 < 2),
    after?_eq_some, Prod.exists]
  constructor
  · rintro ⟨hours, _, ⟨-, rfl⟩, _, rfl, minutes, rest, ⟨-, rfl⟩, h⟩
    by_cases hrange : rest = [] ∧ hours ≤ 23 ∧ minutes ≤ 59
    · rw [if_pos hrange, Option.some.injEq] at h
      obtain ⟨rfl, hhours, hminutes⟩ := hrange
      refine ⟨hours, minutes, hhours, hminutes, by rw [List.append_nil], ?_⟩
      rw [← h]
      cases isWest <;> simp
    · rw [if_neg hrange] at h
      cases h
  · rintro ⟨hours, minutes, hhours, hminutes, rfl, rfl⟩
    have hnil : Text.ofNatPadded 2 minutes = Text.ofNatPadded 2 minutes ++ [] :=
      (List.append_nil _).symm
    refine ⟨hours, _, ⟨by omega, rfl⟩, _, rfl, minutes, [], ⟨by omega, hnil⟩, ?_⟩
    rw [if_pos ⟨rfl, hhours, hminutes⟩]
    cases isWest <;> simp

theorem offset?_cons {sign : Char} (hupper : sign :: t ≠ ['Z']) (hlower : sign :: t ≠ ['z']) :
    offset? (sign :: t) = if sign = '+' then offsetBehind false t
      else if sign = '-' ∨ sign = '\u2212' then offsetBehind true t else none := by
  unfold offset?
  split
  · exact absurd ‹_› hupper
  · exact absurd ‹_› hlower
  · next heq =>
    cases heq
    split_ifs <;> rfl
  · next heq => cases heq

/-- **An offset is the text of a zone.** -/
theorem offset?_eq_some {seconds : ℤ} :
    offset? t = some seconds ↔ ∃ zone : Zone, t = zone.text ∧ seconds = zone.seconds := by
  constructor
  · intro h
    by_cases hupper : t = ['Z']
    · rw [hupper] at h ⊢
      exact ⟨.utc 'Z' (.inl rfl), rfl, (Option.some.inj h).symm⟩
    by_cases hlower : t = ['z']
    · rw [hlower] at h ⊢
      exact ⟨.utc 'z' (.inr rfl), rfl, (Option.some.inj h).symm⟩
    cases t with
    | nil => cases h
    | cons sign t =>
      rw [offset?_cons hupper hlower] at h
      split_ifs at h with hplus hminus
      · obtain ⟨hours, minutes, hhours, hminutes, rfl, rfl⟩ := offsetBehind_eq_some.mp h
        subst hplus
        exact ⟨.offset '+' hours minutes (.inl rfl) hhours hminutes, rfl, by simp [Zone.seconds]⟩
      · obtain ⟨hours, minutes, hhours, hminutes, rfl, rfl⟩ := offsetBehind_eq_some.mp h
        refine ⟨.offset sign hours minutes (.inr hminus) hhours hminutes, rfl, ?_⟩
        simp [Zone.seconds, hplus]
  · rintro ⟨zone, rfl, rfl⟩
    cases zone with
    | utc mark isMark => rcases isMark with rfl | rfl <;> rfl
    | offset sign hours minutes isSign hours_le minutes_le =>
      have hbehind : ∀ isWest, offsetBehind isWest
          (Text.ofNatPadded 2 hours ++ ':' :: Text.ofNatPadded 2 minutes) =
            some ((if isWest then -1 else 1) * (hours * 3600 + minutes * 60 : ℤ)) := fun isWest =>
        offsetBehind_eq_some.mpr ⟨hours, minutes, hours_le, minutes_le, rfl, rfl⟩
      have hletter : sign ≠ 'Z' ∧ sign ≠ 'z' := by
        rcases isSign with rfl | rfl | rfl <;> decide
      rw [Zone.text, offset?_cons (by simp [hletter.1]) (by simp [hletter.2]), hbehind, hbehind]
      by_cases hplus : sign = '+'
      · simp [Zone.seconds, hplus]
      · have hminus := isSign.resolve_left hplus
        simp [Zone.seconds, hplus, hminus]

theorem Zone.head_text (zone : Zone) : ∀ c ∈ zone.text.head?, isDigit c = false ∧ c ≠ '.' := by
  cases zone with
  | utc mark isMark =>
    rintro c ⟨⟩
    rcases isMark with rfl | rfl <;> decide
  | offset sign hours minutes isSign =>
    rintro c ⟨⟩
    rcases isSign with rfl | rfl | rfl <;> decide

end Pieces

/-! ### Timestamps -/

section Stamps

variable {t : Text} {i : Instant}

/-- **What is read is the text of a timestamp.** -/
theorem exists_of_parse? (h : parse? t = some i) : ∃ s : Stamp, t = s.text ∧ i = s.reading := by
  unfold parse? at h
  obtain ⟨⟨year, _⟩, hyear, h⟩ := Option.bind_eq_some_iff.mp h
  obtain ⟨_, hdash, h⟩ := Option.bind_eq_some_iff.mp h
  obtain ⟨⟨month, _⟩, hmonth, h⟩ := Option.bind_eq_some_iff.mp h
  obtain ⟨_, hdash', h⟩ := Option.bind_eq_some_iff.mp h
  obtain ⟨⟨day, behind⟩, hday, h⟩ := Option.bind_eq_some_iff.mp h
  cases behind with
  | nil => cases h
  | cons mark behind =>
    by_cases hmark : mark = 'T' ∨ mark = 't' ∨ mark = ' '
    · dsimp only at h
      rw [if_pos hmark] at h
      obtain ⟨_, ⟨⟩, h⟩ := Option.bind_eq_some_iff.mp h
      obtain ⟨⟨hour, _⟩, hhour, h⟩ := Option.bind_eq_some_iff.mp h
      obtain ⟨_, hcolon, h⟩ := Option.bind_eq_some_iff.mp h
      obtain ⟨⟨minute, _⟩, hminute, h⟩ := Option.bind_eq_some_iff.mp h
      obtain ⟨_, hcolon', h⟩ := Option.bind_eq_some_iff.mp h
      obtain ⟨⟨second, _⟩, hsecond, h⟩ := Option.bind_eq_some_iff.mp h
      obtain ⟨⟨nanos, _⟩, hfraction, h⟩ := Option.bind_eq_some_iff.mp h
      obtain ⟨offset, hoffset, hinstant⟩ := Option.bind_eq_some_iff.mp h
      dsimp only at hdash hdash' hcolon hcolon' hfraction hoffset hinstant
      obtain ⟨digits, hdigits, htext, rfl⟩ := exists_of_fraction? hfraction
      obtain ⟨zone, rfl, rfl⟩ := offset?_eq_some.mp hoffset
      by_cases hrange : (⟨year, month, day⟩ : Date).exists? = true ∧ hour ≤ 23 ∧ minute ≤ 59 ∧
          second ≤ 60
      · rw [if_pos hrange, Option.some.injEq] at hinstant
        obtain ⟨hexists, hhour', hminute', hsecond'⟩ := hrange
        have htwo : 0 < 2 := by norm_num
        obtain ⟨hyear', rfl⟩ := (digits?_eq_some (by norm_num)).mp hyear
        refine ⟨⟨⟨year, month, day⟩, mark, hour, minute, second, digits, zone, hyear', hexists,
          hmark, hhour', hminute', hsecond', hdigits⟩, ?_, hinstant.symm⟩
        rw [Stamp.text, after?_eq_some.mp hdash, ((digits?_eq_some htwo).mp hmonth).2,
          after?_eq_some.mp hdash', ((digits?_eq_some htwo).mp hday).2,
          ((digits?_eq_some htwo).mp hhour).2, after?_eq_some.mp hcolon,
          ((digits?_eq_some htwo).mp hminute).2, after?_eq_some.mp hcolon',
          ((digits?_eq_some htwo).mp hsecond).2, htext]
      · rw [if_neg hrange] at hinstant
        cases hinstant
    · dsimp only at h
      rw [if_neg hmark] at h
      cases h

/-- Months and days of the calendar are written in two digits. -/
theorem lt_of_exists {d : Date} (h : d.exists? = true) : d.month < 10 ^ 2 ∧ d.day < 10 ^ 2 := by
  obtain ⟨hmonth, hday⟩ := Date.month_le_of_exists h
  omega

/-- **The text of a timestamp is read.** -/
theorem parse?_text (s : Stamp) : parse? s.text = some s.reading := by
  have hpadded : ∀ {n : Nat}, n < 10 ^ 2 → ∀ rest,
      digits? 2 (Text.ofNatPadded 2 n ++ rest) = some (n, rest) := fun hn rest =>
    (digits?_eq_some (by norm_num)).mpr ⟨hn, rfl⟩
  have hyear : ∀ rest,
      digits? 4 (Text.ofNatPadded 4 s.date.year ++ rest) = some (s.date.year, rest) :=
    fun rest => (digits?_eq_some (by norm_num)).mpr ⟨s.year_lt, rfl⟩
  have hafter : ∀ c rest, after? c (c :: rest) = some rest := fun c rest => after?_eq_some.mpr rfl
  obtain ⟨hmonth, hday⟩ := lt_of_exists s.isDate
  have hhour : s.hour < 10 ^ 2 := Nat.lt_of_le_of_lt s.hour_le (by norm_num)
  have hminute : s.minute < 10 ^ 2 := Nat.lt_of_le_of_lt s.minute_le (by norm_num)
  have hsecond : s.second < 10 ^ 2 := Nat.lt_of_le_of_lt s.second_le (by norm_num)
  have hfraction := fraction?_append s.isFraction s.zone.head_text
  have hzone : offset? s.zone.text = some s.zone.seconds := offset?_eq_some.mpr ⟨s.zone, rfl, rfl⟩
  have hrange := And.intro s.isDate (And.intro s.hour_le (And.intro s.minute_le s.second_le))
  refine Option.bind_eq_some_iff.mpr ⟨_, hyear _, ?_⟩
  refine Option.bind_eq_some_iff.mpr ⟨_, hafter '-' _, ?_⟩
  refine Option.bind_eq_some_iff.mpr ⟨_, hpadded hmonth _, ?_⟩
  refine Option.bind_eq_some_iff.mpr ⟨_, hafter '-' _, ?_⟩
  refine Option.bind_eq_some_iff.mpr ⟨_, hpadded hday _, ?_⟩
  dsimp only
  rw [if_pos s.isMark]
  refine Option.bind_eq_some_iff.mpr ⟨_, rfl, ?_⟩
  refine Option.bind_eq_some_iff.mpr ⟨_, hpadded hhour _, ?_⟩
  refine Option.bind_eq_some_iff.mpr ⟨_, hafter ':' _, ?_⟩
  refine Option.bind_eq_some_iff.mpr ⟨_, hpadded hminute _, ?_⟩
  refine Option.bind_eq_some_iff.mpr ⟨_, hafter ':' _, ?_⟩
  refine Option.bind_eq_some_iff.mpr ⟨_, hpadded hsecond _, ?_⟩
  refine Option.bind_eq_some_iff.mpr ⟨_, hfraction, ?_⟩
  refine Option.bind_eq_some_iff.mpr ⟨_, hzone, ?_⟩
  exact if_pos hrange

/-- **A text is read as an instant exactly if it is that of a timestamp.** -/
theorem parse?_eq_some : parse? t = some i ↔ ∃ s : Stamp, t = s.text ∧ i = s.reading := by
  constructor
  · exact exists_of_parse?
  · rintro ⟨s, rfl, rfl⟩
    exact parse?_text s

end Stamps

/-! ### Instants -/

/-- The milliseconds of a fraction are rounded down, however many digits it has. -/
theorem fractionNanos_div {digits : Text} (h : ∀ c ∈ digits, isDigit c = true) :
    fractionNanos digits / 1000000 = 1000 * digitsValue digits / 10 ^ digits.length := by
  rcases Nat.le_total digits.length 9 with hshort | hlong
  · have htake : digits.take 9 = digits := List.take_of_length_le hshort
    have hpow : (10 : ℕ) ^ (9 - digits.length) * 10 ^ digits.length = 1000 * 1000000 := by
      rw [← pow_add, Nat.sub_add_cancel hshort]
      norm_num
    have hpos : 0 < 10 ^ digits.length := by positivity
    rw [fractionNanos, htake, Nat.pow_eq, ← Nat.mul_div_mul_right _ _ hpos, mul_assoc, hpow,
      ← mul_assoc, mul_comm 1000000, Nat.mul_div_mul_right _ _ (by norm_num),
      mul_comm (digitsValue digits)]
  · -- What stands behind the ninth digit is less than one of its units.
    have hlate := digitsValue_lt fun c hc => h c (List.mem_of_mem_drop (i := 9) hc)
    have hlength : digits.length = 9 + (digits.drop 9).length := by
      rw [List.length_drop]
      omega
    have hvalue := digitsValue_append (digits.take 9) (digits.drop 9)
    rw [List.take_append_drop] at hvalue
    have hpos : 0 < 10 ^ (digits.drop 9).length := by positivity
    have hpow : 10 ^ (9 + (digits.drop 9).length) =
        1000 * (10 ^ (digits.drop 9).length * 1000000) := by
      rw [pow_add]
      ring
    have hnanos : fractionNanos digits = digitsValue (digits.take 9) := by
      rw [fractionNanos, List.length_take_of_le hlong, Nat.sub_self]
      exact Nat.mul_one _
    rw [hnanos, hvalue, hlength, hpow, Nat.mul_div_mul_left _ _ (by norm_num),
      ← Nat.div_div_eq_div_mul, Nat.mul_comm (digitsValue (digits.take 9)),
      Nat.mul_add_div hpos, Nat.div_eq_of_lt hlate, Nat.add_zero]

namespace Stamp

variable (s : Stamp)

/-- One in a leap second. -/
def leap : Nat := if s.second = 60 then 1 else 0

/-- The milliseconds that are read of the fraction. -/
def millis : Nat := fractionNanos s.fraction / 1000000

/-- A fraction has fewer than a thousand milliseconds. -/
theorem millis_lt : s.millis < 1000 := by
  have hlt := digitsValue_lt s.isFraction
  rw [millis, fractionNanos_div s.isFraction]
  exact Nat.div_lt_of_lt_mul (by omega)

theorem nanos_reading_div : s.reading.nanos / 1000000 = s.millis + s.leap * 1000 := by
  have hnanos : s.reading.nanos = fractionNanos s.fraction + s.leap * 1000000000 := rfl
  rw [hnanos, millis]
  omega

theorem instant_eq : s.instant = (s.reading.seconds + s.leap : ℤ)
    + digitsValue s.fraction / 10 ^ s.fraction.length := by
  have hleap : s.leap ≤ s.second := by
    rw [leap]
    split_ifs with h
    · omega
    · exact Nat.zero_le _
  have hseconds : s.reading.seconds + s.leap =
      (s.date.dayNumber - Date.epoch.dayNumber) * 86400 + s.hour * 3600 + s.minute * 60 + s.second
        - s.zone.seconds := by
    have hreading : s.reading.seconds = s.date.sinceEpoch * 86400
      + (s.hour * 3600 + s.minute * 60 + (s.second - s.leap : Nat)) - s.zone.seconds := rfl
    rw [hreading, Date.sinceEpoch_eq s.isDate, Nat.cast_sub hleap]
    ring
  rw [instant, hseconds]

/-- **The milliseconds of an instant**, rounded down, are those that are read. -/
theorem floor_instant : ⌊1000 * s.instant⌋ = 1000 * (s.reading.seconds + s.leap) + s.millis := by
  have hfraction : 1000 * ((digitsValue s.fraction : ℚ) / 10 ^ s.fraction.length) =
      (1000 * digitsValue s.fraction : ℕ) / (10 ^ s.fraction.length : ℕ) := by
    push_cast
    ring
  have hwhole : 1000 * ((s.reading.seconds + s.leap : ℤ) : ℚ) =
      (1000 * (s.reading.seconds + s.leap) : ℤ) := by push_cast; ring
  rw [instant_eq, mul_add, hfraction, hwhole, Int.floor_intCast_add, Rat.floor_natCast_div_natCast,
    millis, fractionNanos_div s.isFraction]
  norm_cast

/-- Outside leap seconds an instant is not before 1970 exactly if its seconds are not. -/
theorem instant_nonneg_iff (h : s.leap = 0) : 0 ≤ s.instant ↔ 0 ≤ s.reading.seconds := by
  have hlt : (digitsValue s.fraction : ℚ) / 10 ^ s.fraction.length < 1 := by
    rw [div_lt_one (by positivity)]
    exact_mod_cast digitsValue_lt s.isFraction
  have hpos : 0 ≤ (digitsValue s.fraction : ℚ) / 10 ^ s.fraction.length := by positivity
  rw [instant_eq, h, Nat.cast_zero, add_zero]
  constructor
  · intro hnonneg
    by_contra hneg
    have hle : (s.reading.seconds : ℚ) ≤ -1 := by exact_mod_cast (by omega : s.reading.seconds ≤ -1)
    linarith
  · intro hnonneg
    have hcast : (0 : ℚ) ≤ s.reading.seconds := by exact_mod_cast hnonneg
    linarith

end Stamp

end MetricsBridge.Rfc3339
