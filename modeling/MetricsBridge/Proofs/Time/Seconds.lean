import MetricsBridge.Proofs.Backend.Patience
import MetricsBridge.Proofs.Number.Nearest
import MetricsBridge.Proofs.Number.Scientific

/-!
# Spans in seconds

A decimal literal is a span if the nearest binary64 number is neither negative nor `2 ^ 64` or more.
That number decides, and not the literal: what is rounded down to below `2 ^ 64` lies below
`2 ^ 64 - 2 ^ 10`, and what is negative by no more than half of the least positive number is rounded
to zero.  Such a literal is a span and is sent, sign and all (`seconds_accepted_iff`).
-/
namespace MetricsBridge

namespace Double

variable {x : Double} {q : ℚ}

/-! ### The bound of the seconds -/

/-- The greatest number of the format below `2 ^ 64`. -/
def belowBound : Double := ⟨false, 2 ^ 53 - 1, 11⟩

/-- The number `2 ^ 64`. -/
def bound : Double := ⟨false, 2 ^ 52, 12⟩

theorem isInFormat_belowBound : belowBound.IsInFormat :=
  ⟨by norm_num [belowBound], by norm_num [belowBound], by norm_num [belowBound],
    .inl (by norm_num [belowBound])⟩

theorem isInFormat_bound : bound.IsInFormat :=
  ⟨by norm_num [bound], by norm_num [bound], by norm_num [bound], .inl le_rfl⟩

theorem value_belowBound : belowBound.value = 2 ^ 64 - 2 ^ 11 := by
  norm_num [value, magnitude, belowBound]

theorem value_bound : bound.value = 2 ^ 64 := by
  norm_num [value, magnitude, bound]

/-- The greatest number below `2 ^ 64` has an odd significand. -/
theorem lt_of_significand_even {significand k : ℕ} (hs : significand < 2 ^ 53)
    (heven : significand % 2 = 0) (h : significand * 2 ^ k < 2 ^ 64) :
    significand * 2 ^ k < 2 ^ 64 - 2 ^ 11 := by
  obtain ⟨half, rfl⟩ : ∃ half, significand = 2 * half := ⟨significand / 2, by omega⟩
  by_cases hk : 11 ≤ k
  · -- The number is a multiple of twice the gap.
    obtain ⟨m, rfl⟩ := Nat.exists_eq_add_of_le hk
    have hmultiple : 2 * half * 2 ^ (11 + m) = 2 ^ 12 * (half * 2 ^ m) := by ring
    rw [hmultiple] at h ⊢
    generalize half * 2 ^ m = p at h ⊢
    omega
  · have hpow : 2 ^ k ≤ 2 ^ 10 := Nat.pow_le_pow_right (by norm_num) (by omega)
    have hmul : 2 * half * 2 ^ k ≤ 2 ^ 53 * 2 ^ 10 := Nat.mul_le_mul hs.le hpow
    generalize 2 * half * 2 ^ k = p at hmul ⊢
    omega

/-- A number of the format below `2 ^ 64` is at most the greatest one, whose significand is odd. -/
theorem magnitude_le_of_lt (hx : x.IsInFormat) (h : x.magnitude < 2 ^ 64) :
    x.magnitude ≤ 2 ^ 64 - 2 ^ 11 ∧
      (x.significand % 2 = 0 → x.magnitude < 2 ^ 64 - 2 ^ 11) := by
  by_cases he : 0 ≤ x.exponent
  · obtain ⟨k, hk⟩ := Int.eq_ofNat_of_zero_le he
    have hnat : x.magnitude = (x.significand * 2 ^ k : ℕ) := by
      rw [magnitude, hk, zpow_natCast]
      push_cast
      rfl
    have hlt : x.significand * 2 ^ k < 2 ^ 64 := by
      rw [hnat] at h
      exact_mod_cast h
    have hgap : ((2 ^ 64 - 2 ^ 11 : ℕ) : ℚ) = 2 ^ 64 - 2 ^ 11 := by norm_num
    rw [hnat, ← hgap]
    constructor
    · exact_mod_cast Span.le_of_significand_lt hx.significand_lt hlt
    · intro heven
      exact_mod_cast lt_of_significand_even hx.significand_lt heven hlt
  · -- With a part behind the point there is room for 53 binary digits at most.
    have hpow : (2 : ℚ) ^ x.exponent ≤ 1 := zpow_le_one_of_nonpos₀ one_le_two (by omega)
    have hsignificand : (x.significand : ℚ) < 2 ^ 53 := by exact_mod_cast hx.significand_lt
    have hle : x.magnitude ≤ x.significand * 1 :=
      mul_le_mul_of_nonneg_left hpow x.significand.cast_nonneg
    have hgap : (2 : ℚ) ^ 53 < 2 ^ 64 - 2 ^ 11 := by norm_num
    have hlt : x.magnitude < 2 ^ 64 - 2 ^ 11 := by linarith
    exact ⟨hlt.le, fun _ => hlt⟩

/-- **What is rounded to a number below `2 ^ 64`.** -/
theorem IsNearest.value_lt_iff (h : IsNearest q x) : x.value < 2 ^ 64 ↔ q < 2 ^ 64 - 2 ^ 10 := by
  constructor
  · intro hx
    by_contra hq
    obtain ⟨hge, htie⟩ : 2 ^ 64 - 2 ^ 11 ≤ x.value ∧
        (x.value = 2 ^ 64 - 2 ^ 11 → x.significand % 2 = 0) :=
      h.le_of_middle_le isInFormat_bound (by rw [value_bound]; norm_num)
        (by rw [value_bound]; linarith)
    have hvalue : x.value = x.magnitude := by
      rw [← abs_value, abs_of_nonneg (le_trans (by norm_num) hge)]
    rw [hvalue] at hx hge htie
    obtain ⟨hle, heven⟩ := magnitude_le_of_lt h.isInFormat hx
    exact (heven (htie (le_antisymm hle hge))).not_ge hge
  · intro hq
    apply h.lt_of_lt_middle isInFormat_belowBound
    · rw [value_belowBound]
      norm_num
    · rw [value_belowBound]
      linarith

end Double

/-! ### Seconds that are spans -/

theorem Double.ratio_div_lt_iff (x : Double) (n : ℕ) :
    x.ratio.1 / x.ratio.2 < n ↔ x.magnitude < n := by
  unfold Double.ratio Double.magnitude
  split_ifs with he
  · obtain ⟨k, hk⟩ := Int.eq_ofNat_of_zero_le he
    rw [hk, Int.toNat_natCast, zpow_natCast, Nat.div_one, Nat.pow_eq, ← Nat.cast_lt (α := ℚ)]
    push_cast
    rfl
  · obtain ⟨k, hk⟩ : ∃ k : ℕ, x.exponent = -k := ⟨(-x.exponent).toNat, by omega⟩
    rw [hk, neg_neg, Int.toNat_natCast, Nat.pow_eq, zpow_neg, zpow_natCast, ← div_eq_mul_inv,
      Nat.div_lt_iff_lt_mul (by positivity), div_lt_iff₀ (by positivity), ← Nat.cast_lt (α := ℚ)]
    push_cast
    rfl

theorem Double.value_neg_iff (x : Double) : x.value < 0 ↔ x.isNegative ∧ ¬ x.isZero := by
  have hnonneg := x.magnitude_nonneg
  cases hsign : x.isNegative with
  | false =>
    rw [value_of_positive hsign]
    simp [hnonneg]
  | true =>
    have hzero : 0 < x.magnitude ↔ x.significand ≠ 0 := by
      rw [magnitude, mul_pos_iff_of_pos_right (zpow_pos two_pos _), Nat.cast_pos,
        Nat.pos_iff_ne_zero]
    rw [value_of_negative hsign, neg_lt_zero, hzero]
    simp [isZero]

theorem Span.exists_ofDouble?_iff (x : Double) :
    (∃ d, Span.ofDouble? x = some d) ↔ 0 ≤ x.value ∧ x.value < 2 ^ 64 := by
  have hbound := x.ratio_div_lt_iff (2 ^ 64)
  rw [Nat.cast_pow, Nat.cast_ofNat] at hbound
  unfold Span.ofDouble?
  by_cases hneg : x.value < 0
  · rw [if_pos (x.value_neg_iff.mp hneg)]
    simp [hneg]
  · have hvalue : x.value = x.magnitude := by
      rw [← Double.abs_value, abs_of_nonneg (not_lt.mp hneg)]
    rw [if_neg (x.value_neg_iff.not.mp hneg), hvalue]
    dsimp only
    rw [Nat.pow_eq]
    by_cases hlt : x.magnitude < 2 ^ 64
    · rw [if_pos (hbound.mpr hlt)]
      simp [hlt, x.magnitude_nonneg]
    · rw [if_neg (hbound.not.mpr hlt)]
      simp [hlt]

/-! ### Literals that are spans -/

section Literals

variable {input t : Text} {l : Literal} {v : ℚ}

/-- The number of a literal is within the range of spans exactly if what the literal says lies
between these bounds. -/
theorem exists_toDouble?_iff (hv : l.rational? = some v) :
    (∃ x, l.toDouble? = some x ∧ 0 ≤ x.value ∧ x.value < 2 ^ 64) ↔
      -(Double.least / 2) ≤ v ∧ v < 2 ^ 64 - 2 ^ 10 := by
  constructor
  · rintro ⟨x, hx, hnonneg, hlt⟩
    have hnearest := Literal.isNearest_of_toDouble? hv hx
    exact ⟨hnearest.value_nonneg_iff.mp hnonneg, hnearest.value_lt_iff.mp hlt⟩
  · rintro ⟨hlow, hhigh⟩
    have hleast : Double.least ≤ 1 := zpow_le_one_of_nonpos₀ one_le_two (by norm_num)
    have hbig : (2 : ℚ) ^ 64 ≤ 10 ^ 300 :=
      calc (2 : ℚ) ^ 64 ≤ 10 ^ 20 := by norm_num
        _ ≤ 10 ^ 300 := pow_le_pow_right₀ (by norm_num) (by norm_num)
    have hsmall : |v| < 10 ^ 300 := by
      rw [abs_lt]
      generalize (10 : ℚ) ^ 300 = big at hbig ⊢
      constructor <;> linarith
    obtain ⟨x, hx⟩ := Literal.exists_toDouble? hv hsmall
    have hnearest := Literal.isNearest_of_toDouble? hv hx
    exact ⟨x, hx, hnearest.value_nonneg_iff.mpr hlow, hnearest.value_lt_iff.mpr hhigh⟩

/-- So it does for any number of the format that is nearest to what the literal says. -/
theorem exists_isNearest_iff (hv : l.rational? = some v) :
    (∃ x : Double, x.IsNearest v ∧ 0 ≤ x.value ∧ x.value < 2 ^ 64) ↔
      -(Double.least / 2) ≤ v ∧ v < 2 ^ 64 - 2 ^ 10 := by
  constructor
  · rintro ⟨x, hx, hnonneg, hlt⟩
    exact ⟨hx.value_nonneg_iff.mp hnonneg, hx.value_lt_iff.mp hlt⟩
  · intro hbounds
    obtain ⟨x, hx, hvalue⟩ := (exists_toDouble?_iff hv).mpr hbounds
    exact ⟨x, Literal.isNearest_of_toDouble? hv hx, hvalue⟩

theorem exists_checkSpan_iff_of_parse? (hne : Text.trim input ≠ [])
    (hl : Literal.parse? (Text.trim input) = some l) :
    (∃ d, checkSpan input = .ok d) ↔
      ∃ x, l.toDouble? = some x ∧ 0 ≤ x.value ∧ x.value < 2 ^ 64 := by
  simp only [checkSpan_eq_ok, Span.parse?, if_neg hne, hl, Option.bind_eq_some_iff]
  constructor
  · rintro ⟨d, x, hx, hd⟩
    exact ⟨x, hx, (Span.exists_ofDouble?_iff x).mp ⟨d, hd⟩⟩
  · rintro ⟨x, hx, hvalue⟩
    obtain ⟨d, hd⟩ := (Span.exists_ofDouble?_iff x).mpr hvalue
    exact ⟨d, x, hx, hd⟩

theorem Scientific.text_ne_nil (s : Scientific) : s.text ≠ [] := by
  obtain ⟨c, t, hbody, -⟩ := Literal.exists_body_eq_cons s
  rw [text, hbody]
  exact List.append_ne_nil_of_right_ne_nil _ (List.cons_ne_nil c t)

/-- **A decimal literal is a span** exactly if the number that it writes lies between these
bounds. -/
theorem exists_checkSpan_iff {s : Scientific} (hs : Text.trim input = s.text) :
    (∃ d, checkSpan input = .ok d) ↔
      -(Double.least / 2) ≤ s.value ∧ s.value < 2 ^ 64 - 2 ^ 10 := by
  obtain ⟨l, hl, hv⟩ := Option.bind_eq_some_iff.mp (s.denotes)
  rw [← hs] at hl
  rw [exists_checkSpan_iff_of_parse? (hs ▸ s.text_ne_nil) hl, exists_toDouble?_iff hv]

theorem checkSpan_word {sign : Sign} {word : Text} (hword : Text.toLowerAscii word ∈ Literal.words)
    (hinput : Text.trim input = sign.text ++ word) : ∀ d, checkSpan input ≠ .ok d := by
  intro d hd
  have hnone : ∃ l, Literal.parse? (Text.trim input) = some l ∧ l.toDouble? = none := by
    rw [hinput]
    obtain ⟨_, hinfinite⟩ | hnan := Literal.parse?_word sign hword
    · exact ⟨_, hinfinite, rfl⟩
    · exact ⟨_, hnan, rfl⟩
  obtain ⟨l, hl, hnone⟩ := hnone
  have hne : Text.trim input ≠ [] := by
    intro hnil
    rw [hnil] at hl
    cases hl
  obtain ⟨x, hx, -⟩ := (exists_checkSpan_iff_of_parse? hne hl).mp ⟨d, hd⟩
  rw [hnone] at hx
  cases hx

/-- A span is written as a decimal literal between the bounds or in parts. -/
theorem exists_of_checkSpan {d : Span} (h : checkSpan input = .ok d) :
    (∃ s : Scientific, Text.trim input = s.text ∧
      -(Double.least / 2) ≤ s.value ∧ s.value < 2 ^ 64 - 2 ^ 10) ∨
    ∃ millis, Span.partsMillis? Span.units (Text.trim input) = some millis := by
  have hparse := checkSpan_eq_ok.mp h
  unfold Span.parse? at hparse
  dsimp only at hparse
  split_ifs at hparse
  split at hparse
  · next l hl =>
    left
    obtain ⟨x, hx, -⟩ := Option.bind_eq_some_iff.mp hparse
    cases l with
    | infinite isNegative => cases hx
    | notANumber => cases hx
    | decimal isNegative digits power =>
      obtain ⟨s, hs⟩ := Literal.exists_scientific_of_parse? hl
      exact ⟨s, hs.symm, (exists_checkSpan_iff hs.symm).mp ⟨d, h⟩⟩
  · right
    obtain ⟨millis, hmillis, -⟩ := Option.map_eq_some_iff.mp hparse
    exact ⟨millis, hmillis⟩

end Literals

/-! ### Spans that are sent -/

theorem mem_optionPair {name : String} {value : Option Text}
    {check : Text → Except CallError Text} {pairs : List Form.Pair} {p : Form.Pair}
    (h : optionPair name value check = .ok pairs) (hp : p ∈ pairs) :
    p.1 = name.toList ∧ ∃ v, value = some v ∧ check v = .ok p.2 := by
  cases value with
  | none =>
    cases h
    cases hp
  | some v =>
    rw [optionPair, except_map_eq_ok] at h
    obtain ⟨checked, hchecked, rfl⟩ := h
    rw [List.mem_singleton] at hp
    subst hp
    exact ⟨rfl, v, rfl, hchecked⟩

theorem exists_checkSpan_of_mem {o : QueryOptions} {pairs : List Form.Pair}
    (h : o.pairs = .ok pairs) {p : Form.Pair} (hp : p ∈ pairs)
    (hname : p.1 = "timeout".toList ∨ p.1 = "lookback_delta".toList) :
    ∃ input d, checkSpan input = .ok d ∧ p.2 = Text.trim input := by
  have hspan : ∀ v, spanText v = .ok p.2 →
      ∃ input d, checkSpan input = .ok d ∧ p.2 = Text.trim input := by
    intro v hv
    obtain ⟨d, hd, htrim⟩ := except_map_eq_ok.mp hv
    exact ⟨v, d, hd, htrim.symm⟩
  simp only [QueryOptions.pairs, bind_eq_ok, pure_eq_ok] at h
  obtain ⟨timeout, htimeout, limit, hlimit, stats, hstats, lookback, hlookback, rfl⟩ := h
  simp only [List.mem_append] at hp
  obtain ((hp | hp) | hp) | hp := hp
  · obtain ⟨-, v, -, hv⟩ := mem_optionPair htimeout hp
    exact hspan v hv
  · rw [(mem_optionPair hlimit hp).1] at hname
    exact absurd hname (by decide)
  · rw [(mem_optionPair hstats hp).1] at hname
    exact absurd hname (by decide)
  · obtain ⟨-, v, -, hv⟩ := mem_optionPair hlookback hp
    exact hspan v hv

/-- **Spans in seconds.**  Take any decimal literal, with as many digits and as great a power of ten
as may be, and blanks around it.  It is a span exactly if the nearest binary64 number is neither
negative nor `2 ^ 64` or more.  So it is one exactly if the number that it writes lies between half
of the least positive number below zero and `2 ^ 64 - 2 ^ 10`.  Whether the literal itself is not
negative, and the nearest number below `2 ^ 64`, tells the same of every literal but those of the
negative numbers within these bounds, which are spans.  The words for infinity and for what is no
number are no spans.  What is no span is refused with the text as it was given.  What a query sends
as its timeout or its look-back is a decimal literal within the bounds or a span in parts. -/
theorem seconds_accepted_iff (input : Text) (o : QueryOptions) :
    (∀ s : Scientific, Text.trim input = s.text →
      ((∃ d, checkSpan input = .ok d) ↔
        ∃ x : Double, x.IsNearest s.value ∧ 0 ≤ x.value ∧ x.value < 2 ^ 64) ∧
      ((∃ d, checkSpan input = .ok d) ↔
        -(Double.least / 2) ≤ s.value ∧ s.value < 2 ^ 64 - 2 ^ 10) ∧
      (((∃ d, checkSpan input = .ok d) ↔
          0 ≤ s.value ∧ ∃ x : Double, x.IsNearest s.value ∧ x.value < 2 ^ 64) ↔
        ¬ (-(Double.least / 2) ≤ s.value ∧ s.value < 0))) ∧
    (∀ (sign : Sign) (word : Text), Text.toLowerAscii word ∈ Literal.words →
      Text.trim input = sign.text ++ word → checkSpan input = .error (.invalidDuration input)) ∧
    ((∀ d, checkSpan input ≠ .ok d) → checkSpan input = .error (.invalidDuration input)) ∧
    ∀ pairs, o.pairs = .ok pairs → ∀ p ∈ pairs,
      p.1 = "timeout".toList ∨ p.1 = "lookback_delta".toList →
        (∃ s : Scientific, p.2 = s.text ∧
          -(Double.least / 2) ≤ s.value ∧ s.value < 2 ^ 64 - 2 ^ 10) ∨
        ∃ millis, Span.partsMillis? Span.units p.2 = some millis := by
  refine ⟨?_, ?_, ?_, ?_⟩
  · intro s hs
    obtain ⟨l, hl, hv⟩ := Option.bind_eq_some_iff.mp (s.denotes)
    have haccepted := exists_checkSpan_iff hs
    have hnearest := exists_isNearest_iff hv
    have hleast := Double.least_pos
    refine ⟨haccepted.trans hnearest.symm, haccepted, ?_⟩
    rw [haccepted]
    constructor
    · rintro h ⟨hlow, hneg⟩
      have hnonneg := (h.mp ⟨hlow, by linarith⟩).1
      linarith
    · intro hnot
      constructor
      · rintro ⟨hlow, hhigh⟩
        have hnonneg : 0 ≤ s.value := by
          by_contra hneg
          exact hnot ⟨hlow, not_le.mp hneg⟩
        obtain ⟨x, hx, -, hlt⟩ := hnearest.mpr ⟨hlow, hhigh⟩
        exact ⟨hnonneg, x, hx, hlt⟩
      · rintro ⟨hnonneg, x, hx, hlt⟩
        exact ⟨by linarith, hx.value_lt_iff.mp hlt⟩
  · intro sign word hword hinput
    exact checkSpan_eq_error (checkSpan_word hword hinput)
  · exact checkSpan_eq_error
  · intro pairs hpairs p hp hname
    obtain ⟨given, d, hd, htrim⟩ := exists_checkSpan_of_mem hpairs hp hname
    rw [htrim]
    exact exists_of_checkSpan hd

/-- The literal of a negative number that is rounded to zero. -/
def underflow : Scientific where
  sign := .minus
  whole := ['1']
  fraction := none
  power := some ⟨'e', .minus, ['4', '0', '0'], .inl rfl, List.cons_ne_nil _ _,
    List.all_eq_true.mp rfl⟩
  isDigit_whole := List.all_eq_true.mp rfl
  isDigit_fraction := List.all_eq_true.mp rfl
  hasDigit := fun h => List.cons_ne_nil _ _ h.1

/-- A negative number is taken for a span of no time, and a query sends it as its timeout. -/
theorem seconds_accepted_iff_of_underflow :
    underflow.text = "-1e-400".toList ∧ underflow.value < 0 ∧
    -(Double.least / 2) ≤ underflow.value ∧
    checkSpan "-1e-400".toList = .ok ⟨0⟩ ∧
    QueryOptions.pairs { timeout := some "-1e-400".toList } =
      .ok [("timeout".toList, "-1e-400".toList)] := by
  have htrim : Text.trim "-1e-400".toList = underflow.text := by decide
  have hspan : checkSpan "-1e-400".toList = .ok ⟨0⟩ := by decide +kernel
  have hneg : underflow.value < 0 := by
    have hpow : (0 : ℚ) < 10 ^ underflow.exponent := zpow_pos (by norm_num) _
    have hdigits : digitsValue underflow.whole = 1 := rfl
    have hplaces : digitsValue underflow.places = 0 := rfl
    have hsign : underflow.sign.isNegative = true := rfl
    rw [Scientific.value, hdigits, hplaces, if_pos hsign, Nat.cast_one, Nat.cast_zero, zero_div]
    linarith
  have hbounds := ((seconds_accepted_iff "-1e-400".toList {}).1 underflow htrim).2.1.mp ⟨_, hspan⟩
  exact ⟨rfl, hneg, hbounds.1, hspan, by decide +kernel⟩

end MetricsBridge
