import Mathlib.Tactic.SplitIfs
import MetricsBridge.Json.Skip

/-!
# Numbers in a JSON text

A number that is read is passed over up to the same place (`skipNumeral_of_numeral`), and it is read
alike whatever follows it, unless that goes on with the number (`goesOn_numeral`).
-/
namespace MetricsBridge.Json

/-! ### Digits -/

theorem startsWithDigit_eq_false {t : Text} :
    startsWithDigit t = false ↔ t.takeWhile isDigit = [] := by
  cases t with
  | nil => simp [startsWithDigit]
  | cons c rest =>
    rw [startsWithDigit, List.takeWhile_cons]
    split_ifs with hc <;> simp [hc]

/-- What is taken of a text is digits, and what is left follows them. -/
theorem eq_append_of_boundedDigits {bound : Nat} {t : Text} : ∀ {value taken value' taken' : Nat}
    {rest : Text}, boundedDigits bound value taken t = (value', taken', rest) →
    ∃ digits, t = digits ++ rest ∧ (∀ c ∈ digits, isDigit c = true) ∧
      taken' = taken + digits.length := by
  induction t with
  | nil =>
    intro value taken value' taken' rest h
    cases h
    exact ⟨[], rfl, by simp, rfl⟩
  | cons c t ih =>
    intro value taken value' taken' rest h
    unfold boundedDigits at h
    split_ifs at h with hc
    · obtain ⟨digits, rfl, hdigits, rfl⟩ := ih h
      refine ⟨c :: digits, rfl, List.forall_mem_cons.mpr ⟨hc.1, hdigits⟩, ?_⟩
      rw [List.length_cons]
      omega
    · cases h
      exact ⟨[], rfl, by simp, rfl⟩

namespace Cursor

variable {cur next : Cursor} {isNegative : Bool} {n : Numeral}

theorem skipDigits_of_not_digit (h : startsWithDigit cur.rest = false) : cur.skipDigits = cur := by
  have htake := startsWithDigit_eq_false.mp h
  have hdrop := List.takeWhile_append_dropWhile (p := isDigit) (l := cur.rest)
  rw [htake, List.nil_append] at hdrop
  rw [skipDigits, htake, hdrop]
  rfl

/-- Where some of the digits have been taken, the others remain to be passed over. -/
theorem skipDigits_boundedDigits {bound value value' taken : Nat} {rest : Text}
    (h : boundedDigits bound value 0 cur.rest = (value', taken, rest)) :
    (cur.ahead taken rest).skipDigits = cur.skipDigits := by
  obtain ⟨digits, ht, hdigits, rfl⟩ := eq_append_of_boundedDigits h
  have htake : (digits ++ rest).takeWhile isDigit = digits ++ rest.takeWhile isDigit :=
    List.takeWhile_append_of_pos hdigits
  have hdrop : (digits ++ rest).dropWhile isDigit = rest.dropWhile isDigit :=
    List.dropWhile_append_of_pos hdigits
  rw [skipDigits, skipDigits, ht, htake, hdrop, List.length_append, ahead, ahead, ahead]
  simp only [Cursor.mk.injEq, true_and]
  omega

theorem ahead_boundedDigits {bound value value' taken : Nat} {rest : Text}
    (h : boundedDigits bound value 0 cur.rest = (value', taken, rest))
    (hrest : startsWithDigit rest = false) : cur.ahead taken rest = cur.skipDigits := by
  rw [← skipDigits_boundedDigits h]
  exact (skipDigits_of_not_digit hrest).symm

theorem double_eq_ok {digits : Nat} {power : Int}
    (h : cur.double isNegative digits power = .ok (n, next)) : next = cur := by
  unfold double at h
  split at h
  · cases h
    rfl
  · cases h

/-- The sign of an exponent, and what follows it. -/
def exponentSign (cur : Cursor) : Bool × Cursor :=
  match cur.rest with
  | '+' :: rest => (false, cur.ahead 1 rest)
  | '-' :: rest => (true, cur.ahead 1 rest)
  | _ => (false, cur)

/-- What follows the sign of an exponent, after `digits * 10 ^ power`. -/
def exponentDigits (cur : Cursor) (isDown isNegative : Bool) (digits : Nat) (power : Int) :
    Reading (Numeral × Cursor) :=
  match cur.rest with
  | [] => cur.fail .unfinishedValue
  | c :: _ =>
    if isDigit c then
      let (value, taken, rest) := boundedDigits (Nat.pow 2 31) 0 0 cur.rest
      let cur := cur.ahead taken rest
      if startsWithDigit rest then
        if digits ≠ 0 ∧ isDown = false then cur.failNext .numberOutOfRange
        else .ok (.double (.zero isNegative), cur.skipDigits)
      else cur.double isNegative digits (if isDown then power - value else power + value)
    else cur.failNext .invalidNumber

theorem exponent_eq (cur : Cursor) (isNegative : Bool) (digits : Nat) (power : Int) :
    cur.exponent isNegative digits power =
      cur.exponentSign.2.exponentDigits cur.exponentSign.1 isNegative digits power := rfl

theorem skipExponent_eq (cur : Cursor) : cur.skipExponent =
    if startsWithDigit cur.exponentSign.2.rest then .ok cur.exponentSign.2.skipDigits
    else cur.exponentSign.2.failNext .invalidNumber := by
  have hsign : cur.exponentSign.2 = match cur.rest with
      | '+' :: rest => cur.ahead 1 rest
      | '-' :: rest => cur.ahead 1 rest
      | _ => cur := by
    unfold exponentSign
    split <;> rfl
  rw [hsign]
  rfl

theorem exponentDigits_eq_ok {isDown : Bool} {digits : Nat} {power : Int}
    (h : cur.exponentDigits isDown isNegative digits power = .ok (n, next)) :
    startsWithDigit cur.rest = true ∧ next = cur.skipDigits := by
  unfold exponentDigits at h
  split at h
  · cases h
  · next c t hcur =>
    by_cases hc : isDigit c = true
    · refine ⟨by rw [hcur]; exact hc, ?_⟩
      rw [if_pos hc] at h
      generalize hb : boundedDigits (Nat.pow 2 31) 0 0 cur.rest = taken at h
      obtain ⟨value, taken, rest⟩ := taken
      dsimp only at h
      split at h
      · split at h
        · cases h
        · cases h
          exact skipDigits_boundedDigits hb
      · next hrest =>
        rw [double_eq_ok h]
        exact ahead_boundedDigits hb (Bool.not_eq_true _ ▸ hrest)
    · rw [if_neg hc] at h
      cases h

theorem skipExponent_of_exponent {digits : Nat} {power : Int}
    (h : cur.exponent isNegative digits power = .ok (n, next)) : cur.skipExponent = .ok next := by
  rw [exponent_eq] at h
  obtain ⟨hstart, rfl⟩ := exponentDigits_eq_ok h
  rw [skipExponent_eq, if_pos hstart]

theorem maybeExponent_of_cons {c : Char} {t : Text} (hcur : cur.rest = c :: t) (digits : Nat)
    (power : Int) : cur.maybeExponent isNegative digits power =
      if c = 'e' ∨ c = 'E' then (cur.ahead 1 t).exponent isNegative digits power
      else cur.double isNegative digits power := by
  unfold maybeExponent
  split
  · next rest hrest =>
    cases hcur.symm.trans hrest
    rfl
  · next rest hrest =>
    cases hcur.symm.trans hrest
    rfl
  · next he hE =>
    have hc : ¬ (c = 'e' ∨ c = 'E') := by
      rintro (hc | hc)
      · exact he t (hc ▸ hcur)
      · exact hE t (hc ▸ hcur)
    rw [if_neg hc]

theorem skipMaybeExponent_of_cons {c : Char} {t : Text} (hcur : cur.rest = c :: t) :
    cur.skipMaybeExponent =
      if c = 'e' ∨ c = 'E' then (cur.ahead 1 t).skipExponent else .ok cur := by
  unfold skipMaybeExponent
  split
  · next rest hrest =>
    cases hcur.symm.trans hrest
    rfl
  · next rest hrest =>
    cases hcur.symm.trans hrest
    rfl
  · next he hE =>
    have hc : ¬ (c = 'e' ∨ c = 'E') := by
      rintro (hc | hc)
      · exact he t (hc ▸ hcur)
      · exact hE t (hc ▸ hcur)
    rw [if_neg hc]

theorem skipMaybeExponent_of_maybeExponent {digits : Nat} {power : Int}
    (h : cur.maybeExponent isNegative digits power = .ok (n, next)) :
    cur.skipMaybeExponent = .ok next := by
  cases hcur : cur.rest with
  | nil =>
    rw [maybeExponent, hcur] at h
    rw [skipMaybeExponent, hcur, double_eq_ok h]
  | cons c t =>
    rw [maybeExponent_of_cons hcur] at h
    rw [skipMaybeExponent_of_cons hcur]
    split at h
    · next hc =>
      rw [if_pos hc]
      exact skipExponent_of_exponent h
    · next hc => rw [if_neg hc, double_eq_ok h]

/-- The digits of a fraction and the exponent behind them. -/
theorem skipMaybeExponent_of_fraction {digits : Nat} {power : Int}
    (h : cur.fraction isNegative digits power = .ok (n, next)) :
    startsWithDigit cur.rest = true ∧ cur.skipDigits.skipMaybeExponent = .ok next := by
  unfold fraction at h
  generalize hb : boundedDigits (Nat.pow 2 64) digits 0 cur.rest = taken at h
  obtain ⟨value, taken, rest⟩ := taken
  obtain ⟨front, hcur, hfront, htaken⟩ := eq_append_of_boundedDigits hb
  dsimp only at h
  split at h
  · next hrest =>
    rw [skipDigits_boundedDigits hb] at h
    refine ⟨?_, skipMaybeExponent_of_maybeExponent h⟩
    rw [hcur]
    cases front with
    | nil => exact hrest
    | cons c front => exact hfront c List.mem_cons_self
  · next hrest =>
    have hrest' : startsWithDigit rest = false := Bool.not_eq_true _ ▸ hrest
    split at h
    · split at h <;> cases h
    · next hne =>
      rw [ahead_boundedDigits hb hrest'] at h
      refine ⟨?_, skipMaybeExponent_of_maybeExponent h⟩
      rw [hcur]
      cases front with
      | nil => exact absurd htaken hne
      | cons c front => exact hfront c List.mem_cons_self

theorem skipAfterInteger_of_afterInteger {digits skipped : Nat}
    (h : cur.afterInteger isNegative digits skipped = .ok (n, next)) :
    cur.skipAfterInteger = .ok next := by
  unfold afterInteger at h
  unfold skipAfterInteger
  split at h
  · next rest hcur =>
    obtain ⟨hstart, hskip⟩ := skipMaybeExponent_of_fraction h
    rw [hcur]
    exact (if_pos hstart).trans hskip
  · next rest hcur =>
    rw [hcur]
    exact skipMaybeExponent_of_maybeExponent h
  · next rest hcur =>
    rw [hcur]
    exact skipMaybeExponent_of_maybeExponent h
  · next hpoint he hE =>
    have hnext : next = cur := by
      split_ifs at h
      · exact double_eq_ok h
      · cases h
        rfl
      · exact double_eq_ok h
      · cases h
        rfl
    rw [hnext]
    split
    · next rest hcur => exact absurd hcur (hpoint rest)
    · unfold skipMaybeExponent
      split
      · next rest hcur => exact absurd hcur (he rest)
      · next rest hcur => exact absurd hcur (hE rest)
      · rfl

/-- **A number that is read is passed over** up to the same place. -/
theorem skipNumeral_of_numeral (h : cur.numeral isNegative = .ok (n, next)) :
    cur.skipNumeral = .ok next := by
  unfold numeral at h
  unfold skipNumeral
  split at h
  · cases h
  · next rest hcur =>
    rw [hcur]
    dsimp only at h
    split at h
    · cases h
    · next hrest => exact (if_neg hrest).trans (skipAfterInteger_of_afterInteger h)
  · next c t hzero hcur =>
    have hstart : startsWithDigit cur.rest = isDigit c := by rw [hcur]; rfl
    split
    · next rest hcur' => exact absurd (List.cons.inj (hcur.symm.trans hcur')).1 hzero
    · split at h
      · next hc =>
        rw [if_pos (hstart.trans hc)]
        generalize hb : boundedDigits (Nat.pow 2 64) 0 0 cur.rest = taken at h
        obtain ⟨value, taken, rest⟩ := taken
        dsimp only at h
        split at h
        · rw [skipDigits_boundedDigits hb] at h
          exact skipAfterInteger_of_afterInteger h
        · next hrest =>
          rw [ahead_boundedDigits hb (Bool.not_eq_true _ ▸ hrest)] at h
          exact skipAfterInteger_of_afterInteger h
      · cases h

/-! ### What is left behind a number -/

theorem rest_skipDigits_suffix (cur : Cursor) : cur.skipDigits.rest <:+ cur.rest :=
  List.dropWhile_suffix _

theorem rest_exponentSign_suffix (cur : Cursor) : cur.exponentSign.2.rest <:+ cur.rest := by
  unfold exponentSign
  split
  · next rest hcur => exact hcur ▸ List.suffix_cons _ rest
  · next rest hcur => exact hcur ▸ List.suffix_cons _ rest
  · exact List.suffix_refl _

theorem rest_suffix_of_skipExponent (h : cur.skipExponent = .ok next) : next.rest <:+ cur.rest := by
  rw [skipExponent_eq] at h
  split at h
  · cases h
    exact (rest_skipDigits_suffix _).trans (rest_exponentSign_suffix cur)
  · cases h

theorem rest_suffix_of_skipMaybeExponent (h : cur.skipMaybeExponent = .ok next) :
    next.rest <:+ cur.rest := by
  unfold skipMaybeExponent at h
  split at h
  · next rest hcur =>
    rw [hcur]
    exact (rest_suffix_of_skipExponent h).trans (List.suffix_cons _ rest)
  · next rest hcur =>
    rw [hcur]
    exact (rest_suffix_of_skipExponent h).trans (List.suffix_cons _ rest)
  · cases h
    exact List.suffix_refl _

theorem rest_suffix_of_skipAfterInteger (h : cur.skipAfterInteger = .ok next) :
    next.rest <:+ cur.rest := by
  unfold skipAfterInteger at h
  split at h
  · next rest hcur =>
    dsimp only at h
    split at h
    · rw [hcur]
      refine (rest_suffix_of_skipMaybeExponent h).trans ?_
      exact (rest_skipDigits_suffix _).trans (List.suffix_cons _ rest)
    · cases h
  · exact rest_suffix_of_skipMaybeExponent h

/-- What is left behind a number is the end of what was there. -/
theorem rest_suffix_of_skipNumeral (h : cur.skipNumeral = .ok next) : next.rest <:+ cur.rest := by
  unfold skipNumeral at h
  split at h
  · next rest hcur =>
    dsimp only at h
    split at h
    · cases h
    · rw [hcur]
      exact (rest_suffix_of_skipAfterInteger h).trans (List.suffix_cons _ rest)
  · split at h
    · exact (rest_suffix_of_skipAfterInteger h).trans (rest_skipDigits_suffix cur)
    · cases h

end Cursor

/-! ### Text behind a number -/

/-- The text does not go on with a number. -/
def EndsNumber (more : Text) : Prop :=
  ∀ c rest, more = c :: rest → isDigit c = false ∧ c ≠ '.' ∧ c ≠ 'e' ∧ c ≠ 'E'

theorem endsNumber_nil : EndsNumber [] := by
  intro c rest h
  cases h

theorem EndsNumber.startsWithDigit {more : Text} (h : EndsNumber more) :
    startsWithDigit more = false := by
  cases more with
  | nil => rfl
  | cons c rest => exact (h c rest rfl).1

theorem startsWithDigit_append {more : Text} (h : EndsNumber more) (t : Text) :
    startsWithDigit (t ++ more) = startsWithDigit t := by
  cases t with
  | nil => exact h.startsWithDigit
  | cons c t => rfl

theorem takeWhile_append {more : Text} (h : EndsNumber more) (t : Text) :
    (t ++ more).takeWhile isDigit = t.takeWhile isDigit := by
  induction t with
  | nil => exact startsWithDigit_eq_false.mp h.startsWithDigit
  | cons c t ih =>
    rw [List.cons_append, List.takeWhile_cons, List.takeWhile_cons, ih]

theorem dropWhile_append {more : Text} (h : EndsNumber more) (t : Text) :
    (t ++ more).dropWhile isDigit = t.dropWhile isDigit ++ more := by
  induction t with
  | nil =>
    cases more with
    | nil => rfl
    | cons c rest => exact List.dropWhile_cons_of_neg (Bool.not_eq_true _ ▸ (h c rest rfl).1)
  | cons c t ih =>
    rw [List.cons_append, List.dropWhile_cons, List.dropWhile_cons, ih]
    split <;> rfl

theorem boundedDigits_append {bound : Nat} {more : Text} (h : EndsNumber more) {t : Text} :
    ∀ {value taken value' taken' : Nat} {rest : Text},
    boundedDigits bound value taken t = (value', taken', rest) →
    boundedDigits bound value taken (t ++ more) = (value', taken', rest ++ more) := by
  induction t with
  | nil =>
    intro value taken value' taken' rest hread
    cases hread
    cases more with
    | nil => rfl
    | cons c more =>
      have hc : ¬ (isDigit c = true ∧ 10 * value + digitValue c < bound) := by
        rw [(h c more rfl).1]
        exact fun hc => Bool.false_ne_true hc.1
      rw [List.nil_append, boundedDigits, if_neg hc]
  | cons c t ih =>
    intro value taken value' taken' rest hread
    rw [boundedDigits] at hread
    rw [List.cons_append, boundedDigits]
    split at hread
    · next hc =>
      rw [if_pos hc]
      exact ih hread
    · next hc =>
      rw [if_neg hc]
      cases hread
      rfl

namespace Cursor

variable {cur cur' next : Cursor} {isNegative : Bool} {n : Numeral} {more : Text}

/-- A reading of a number that goes the same way if more text follows. -/
def GoesOn (more : Text) (f : Cursor → Reading (Numeral × Cursor)) : Prop :=
  ∀ {cur cur' next : Cursor} {n : Numeral}, f cur = .ok (n, next) → cur'.rest = cur.rest ++ more →
    ∃ next', f cur' = .ok (n, next') ∧ next'.rest = next.rest ++ more

theorem rest_cons_append {c : Char} {t : Text} (hcur : cur'.rest = cur.rest ++ more)
    (hrest : cur.rest = c :: t) : cur'.rest = c :: (t ++ more) := by
  rw [hcur, hrest, List.cons_append]

theorem goesOn_double (digits : Nat) (power : Int) :
    GoesOn more fun cur => cur.double isNegative digits power := by
  intro cur cur' next n h hcur
  unfold double at h ⊢
  split at h
  · cases h
    exact ⟨cur', rfl, hcur⟩
  · cases h

theorem rest_skipDigits (hm : EndsNumber more) (hcur : cur'.rest = cur.rest ++ more) :
    cur'.skipDigits.rest = cur.skipDigits.rest ++ more := by
  rw [skipDigits, skipDigits, hcur]
  exact dropWhile_append hm cur.rest

theorem goesOn_exponentDigits (hm : EndsNumber more) (isDown : Bool) (digits : Nat) (power : Int) :
    GoesOn more fun cur => cur.exponentDigits isDown isNegative digits power := by
  intro cur cur' next n h hcur
  dsimp only at h ⊢
  cases hrest : cur.rest with
  | nil =>
    rw [exponentDigits, hrest] at h
    cases h
  | cons c t =>
    have hcur' := rest_cons_append hcur hrest
    rw [exponentDigits, hrest] at h
    rw [exponentDigits, hcur']
    dsimp only at h ⊢
    split at h
    · next hc =>
      rw [if_pos hc]
      generalize hb : boundedDigits (Nat.pow 2 31) 0 0 (c :: t) = taken at h
      obtain ⟨value, taken, rest⟩ := taken
      rw [← List.cons_append, boundedDigits_append hm hb]
      dsimp only at h ⊢
      rw [startsWithDigit_append hm]
      split at h
      · next hstart =>
        rw [if_pos hstart]
        split at h
        · cases h
        · next hne =>
          cases h
          rw [if_neg hne]
          exact ⟨_, rfl, rest_skipDigits hm rfl⟩
      · next hstart =>
        rw [if_neg hstart]
        exact goesOn_double digits _ h rfl
    · cases h

theorem exponentSign_of_cons {c : Char} {t : Text} (hcur : cur.rest = c :: t) : cur.exponentSign =
    if c = '+' then (false, cur.ahead 1 t)
    else if c = '-' then (true, cur.ahead 1 t)
    else (false, cur) := by
  unfold exponentSign
  split
  · next rest hrest =>
    cases hcur.symm.trans hrest
    rfl
  · next rest hrest =>
    cases hcur.symm.trans hrest
    rfl
  · next hplus hminus =>
    have hc : c ≠ '+' := fun hc => hplus t (hc ▸ hcur)
    have hc' : c ≠ '-' := fun hc => hminus t (hc ▸ hcur)
    rw [if_neg hc, if_neg hc']

theorem goesOn_exponent (hm : EndsNumber more) (digits : Nat) (power : Int) :
    GoesOn more fun cur => cur.exponent isNegative digits power := by
  intro cur cur' next n h hcur
  dsimp only at h ⊢
  rw [exponent_eq] at h ⊢
  have hsign : cur'.exponentSign.1 = cur.exponentSign.1 ∧
      cur'.exponentSign.2.rest = cur.exponentSign.2.rest ++ more := by
    cases hrest : cur.rest with
    | nil =>
      -- Where nothing follows there is no exponent.
      have hempty : cur.exponentSign.2.rest = [] := by
        unfold exponentSign
        rw [hrest]
        exact hrest
      rw [exponentDigits, hempty] at h
      cases h
    | cons c t =>
      have hcur' := rest_cons_append hcur hrest
      rw [exponentSign_of_cons hrest, exponentSign_of_cons hcur']
      split
      · exact ⟨rfl, rfl⟩
      · split
        · exact ⟨rfl, rfl⟩
        · exact ⟨rfl, hcur⟩
  rw [hsign.1]
  exact goesOn_exponentDigits hm _ digits power h hsign.2

/-- Where no exponent follows there is none. -/
theorem maybeExponent_of_endsNumber (hm : EndsNumber cur.rest) (digits : Nat) (power : Int) :
    cur.maybeExponent isNegative digits power = cur.double isNegative digits power := by
  cases hrest : cur.rest with
  | nil =>
    unfold maybeExponent
    rw [hrest]
  | cons c t =>
    obtain ⟨-, -, he, hE⟩ := hm c t hrest
    rw [maybeExponent_of_cons hrest, if_neg fun hc => hc.elim he hE]

theorem goesOn_maybeExponent (hm : EndsNumber more) (digits : Nat) (power : Int) :
    GoesOn more fun cur => cur.maybeExponent isNegative digits power := by
  intro cur cur' next n h hcur
  dsimp only at h ⊢
  cases hrest : cur.rest with
  | nil =>
    rw [hrest, List.nil_append] at hcur
    rw [maybeExponent_of_endsNumber (hcur ▸ hm)]
    have hends : EndsNumber cur.rest := by
      rw [hrest]
      exact endsNumber_nil
    rw [maybeExponent_of_endsNumber hends] at h
    refine goesOn_double digits power h ?_
    rw [hrest]
    exact hcur
  | cons c t =>
    have hcur' := rest_cons_append hcur hrest
    rw [maybeExponent_of_cons hrest] at h
    rw [maybeExponent_of_cons hcur']
    split at h
    · next hc =>
      rw [if_pos hc]
      exact goesOn_exponent hm digits power h rfl
    · next hc =>
      rw [if_neg hc]
      exact goesOn_double digits power h hcur

theorem goesOn_fraction (hm : EndsNumber more) (digits : Nat) (power : Int) :
    GoesOn more fun cur => cur.fraction isNegative digits power := by
  intro cur cur' next n h hcur
  dsimp only at h ⊢
  unfold fraction at h ⊢
  generalize hb : boundedDigits (Nat.pow 2 64) digits 0 cur.rest = taken at h
  obtain ⟨value, taken, rest⟩ := taken
  rw [hcur, boundedDigits_append hm hb]
  dsimp only at h ⊢
  rw [startsWithDigit_append hm]
  split at h
  · next hstart =>
    rw [if_pos hstart]
    exact goesOn_maybeExponent hm value _ h (rest_skipDigits hm rfl)
  · next hstart =>
    rw [if_neg hstart]
    split at h
    · split at h <;> cases h
    · next hne =>
      rw [if_neg hne]
      exact goesOn_maybeExponent hm value _ h rfl

/-- A number that ends with its integer part. -/
def integer (cur : Cursor) (isNegative : Bool) (digits skipped : Nat) :
    Reading (Numeral × Cursor) :=
  if skipped ≠ 0 then cur.double isNegative digits skipped
  else if isNegative = false then .ok (.natural digits, cur)
  else if digits = 0 ∨ Nat.pow 2 63 < digits then cur.double true digits 0
  else .ok (.negative digits, cur)

theorem goesOn_integer (digits skipped : Nat) :
    GoesOn more fun cur => cur.integer isNegative digits skipped := by
  intro cur cur' next n h hcur
  dsimp only [integer] at h ⊢
  split at h
  · next hne =>
    rw [if_pos hne]
    exact goesOn_double digits _ h hcur
  · next hne =>
    rw [if_neg hne]
    split at h
    · next hpos =>
      cases h
      rw [if_pos hpos]
      exact ⟨cur', rfl, hcur⟩
    · next hpos =>
      rw [if_neg hpos]
      split at h
      · next hlarge =>
        rw [if_pos hlarge]
        exact goesOn_double digits _ h hcur
      · next hlarge =>
        cases h
        rw [if_neg hlarge]
        exact ⟨cur', rfl, hcur⟩

theorem afterInteger_of_cons {c : Char} {t : Text} (hcur : cur.rest = c :: t)
    (digits skipped : Nat) : cur.afterInteger isNegative digits skipped =
      if c = '.' then (cur.ahead 1 t).fraction isNegative digits skipped
      else if c = 'e' ∨ c = 'E' then cur.maybeExponent isNegative digits skipped
      else cur.integer isNegative digits skipped := by
  unfold afterInteger
  split
  · next rest hrest =>
    cases hcur.symm.trans hrest
    rfl
  · next rest hrest =>
    cases hcur.symm.trans hrest
    rfl
  · next rest hrest =>
    cases hcur.symm.trans hrest
    rfl
  · next hpoint he hE =>
    have hc : c ≠ '.' := fun hc => hpoint t (hc ▸ hcur)
    have hc' : ¬ (c = 'e' ∨ c = 'E') := by
      rintro (hc | hc)
      · exact he t (hc ▸ hcur)
      · exact hE t (hc ▸ hcur)
    rw [if_neg hc, if_neg hc']
    rfl

theorem afterInteger_of_endsNumber (hm : EndsNumber cur.rest) (digits skipped : Nat) :
    cur.afterInteger isNegative digits skipped = cur.integer isNegative digits skipped := by
  cases hrest : cur.rest with
  | nil =>
    unfold afterInteger
    rw [hrest]
    rfl
  | cons c t =>
    obtain ⟨-, hpoint, he, hE⟩ := hm c t hrest
    rw [afterInteger_of_cons hrest, if_neg hpoint, if_neg fun hc => hc.elim he hE]

theorem goesOn_afterInteger (hm : EndsNumber more) (digits skipped : Nat) :
    GoesOn more fun cur => cur.afterInteger isNegative digits skipped := by
  intro cur cur' next n h hcur
  dsimp only at h ⊢
  cases hrest : cur.rest with
  | nil =>
    have hends : EndsNumber cur.rest := by
      rw [hrest]
      exact endsNumber_nil
    have hends' : EndsNumber cur'.rest := by
      rw [hcur, hrest]
      exact hm
    rw [afterInteger_of_endsNumber hends] at h
    rw [afterInteger_of_endsNumber hends']
    exact goesOn_integer digits skipped h hcur
  | cons c t =>
    have hcur' := rest_cons_append hcur hrest
    rw [afterInteger_of_cons hrest] at h
    rw [afterInteger_of_cons hcur']
    split at h
    · next hc =>
      rw [if_pos hc]
      exact goesOn_fraction hm digits _ h rfl
    · next hc =>
      rw [if_neg hc]
      split at h
      · next he =>
        rw [if_pos he]
        exact goesOn_maybeExponent hm digits _ h hcur
      · next he =>
        rw [if_neg he]
        exact goesOn_integer digits skipped h hcur

theorem numeral_of_cons {c : Char} {t : Text} (hcur : cur.rest = c :: t) : cur.numeral isNegative =
    if c = '0' then
      if startsWithDigit t then (cur.ahead 1 t).failNext .invalidNumber
      else (cur.ahead 1 t).afterInteger isNegative 0 0
    else if isDigit c then
      let (value, taken, rest) := boundedDigits (Nat.pow 2 64) 0 0 (c :: t)
      let after := cur.ahead taken rest
      if startsWithDigit rest then
        after.skipDigits.afterInteger isNegative value (rest.takeWhile isDigit).length
      else after.afterInteger isNegative value 0
    else cur.failNext .invalidNumber := by
  unfold numeral
  split
  · next hrest => cases hcur.symm.trans hrest
  · next rest hrest =>
    cases hcur.symm.trans hrest
    rfl
  · next c' t' hzero hrest =>
    cases hcur.symm.trans hrest
    rw [if_neg hzero, hcur]

/-- **A number is read alike whatever follows it**, unless that goes on with the number. -/
theorem goesOn_numeral (hm : EndsNumber more) : GoesOn more fun cur => cur.numeral isNegative := by
  intro cur cur' next n h hcur
  dsimp only at h ⊢
  cases hrest : cur.rest with
  | nil =>
    rw [numeral, hrest] at h
    cases h
  | cons c t =>
    have hcur' := rest_cons_append hcur hrest
    rw [numeral_of_cons hrest] at h
    rw [numeral_of_cons hcur', startsWithDigit_append hm]
    split at h
    · next hc =>
      rw [if_pos hc]
      split at h
      · cases h
      · next hstart =>
        rw [if_neg hstart]
        exact goesOn_afterInteger hm 0 0 h rfl
    · next hc =>
      rw [if_neg hc]
      split at h
      · next hdigit =>
        rw [if_pos hdigit]
        generalize hb : boundedDigits (Nat.pow 2 64) 0 0 (c :: t) = taken at h
        obtain ⟨value, taken, rest⟩ := taken
        rw [← List.cons_append, boundedDigits_append hm hb]
        dsimp only at h ⊢
        rw [startsWithDigit_append hm, takeWhile_append hm]
        split at h
        · next hstart =>
          rw [if_pos hstart]
          exact goesOn_afterInteger hm value _ h (rest_skipDigits hm rfl)
        · next hstart =>
          rw [if_neg hstart]
          exact goesOn_afterInteger hm value 0 h rfl
      · cases h

end Cursor

end MetricsBridge.Json
