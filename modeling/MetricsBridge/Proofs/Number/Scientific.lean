import Mathlib
import MetricsBridge.Number.Literal
import MetricsBridge.Proofs.Number.Digits
import MetricsBridge.Proofs.Text.Split

/-!
# Decimal literals

A decimal literal is made of a sign, digits with a point or none, and a power of ten (`Scientific`).
It is read as the digits and the power of ten that it writes (`parse?_text`), and nothing else is
read as a decimal (`exists_scientific_of_parse?`).  The other literals are words, for infinity and
for what is no number (`parse?_word`).
-/
namespace MetricsBridge

/-- A sign in front of digits, which may be left out. -/
inductive Sign where
  | omitted
  | plus
  | minus
  deriving DecidableEq, Repr

namespace Sign

def text : Sign → Text
  | omitted => []
  | plus => ['+']
  | minus => ['-']

def isNegative : Sign → Bool
  | omitted => false
  | plus => false
  | minus => true

end Sign

/-- A power of ten behind the digits of a literal. -/
structure TenPower where
  mark : Char
  sign : Sign
  digits : Text
  mark_eq : mark = 'e' ∨ mark = 'E'
  digits_ne_nil : digits ≠ []
  isDigit_digits : ∀ c ∈ digits, isDigit c = true

namespace TenPower

def text (p : TenPower) : Text :=
  p.mark :: (p.sign.text ++ p.digits)

/-- The exponent that is written. -/
def exponent (p : TenPower) : ℤ :=
  if p.sign.isNegative then -(digitsValue p.digits : ℤ) else digitsValue p.digits

end TenPower

/-- A decimal literal.  It has at least one digit in front of the point or behind it. -/
structure Scientific where
  sign : Sign
  whole : Text
  fraction : Option Text
  power : Option TenPower
  isDigit_whole : ∀ c ∈ whole, isDigit c = true
  isDigit_fraction : ∀ c ∈ fraction.getD [], isDigit c = true
  hasDigit : ¬ (whole = [] ∧ fraction.getD [] = [])

namespace Scientific

/-- The digits behind the point. -/
def places (s : Scientific) : Text :=
  s.fraction.getD []

/-- The point, if there is one, and the digits behind it. -/
def point (s : Scientific) : Text :=
  s.fraction.elim [] fun digits => '.' :: digits

/-- The power of ten, if there is one. -/
def tail (s : Scientific) : Text :=
  s.power.elim [] TenPower.text

def exponent (s : Scientific) : ℤ :=
  s.power.elim 0 TenPower.exponent

def text (s : Scientific) : Text :=
  s.sign.text ++ (s.whole ++ (s.point ++ s.tail))

/-- The number that the literal writes, without any rounding. -/
def value (s : Scientific) : ℚ :=
  (if s.sign.isNegative then -1 else 1) *
    (digitsValue s.whole + digitsValue s.places / 10 ^ s.places.length) * 10 ^ s.exponent

end Scientific

namespace Literal

/-! ### Signs -/

/-- The sign in front of a text, and what follows it. -/
def splitSign (t : Text) : Bool × Text :=
  match t with
  | '-' :: rest => (true, rest)
  | '+' :: rest => (false, rest)
  | _ => (false, t)

theorem splitSign_text (sign : Sign) {t : Text} (h : ∀ c ∈ t.head?, c ≠ '-' ∧ c ≠ '+') :
    splitSign (sign.text ++ t) = (sign.isNegative, t) := by
  cases sign with
  | omitted =>
    rw [Sign.text, List.nil_append]
    unfold splitSign
    split
    · exact absurd rfl (h '-' rfl).1
    · exact absurd rfl (h '+' rfl).2
    · rfl
  | plus => rfl
  | minus => rfl

theorem exists_sign (t : Text) : ∃ sign : Sign, t = sign.text ++ (splitSign t).2 := by
  unfold splitSign
  split
  · exact ⟨.minus, rfl⟩
  · exact ⟨.plus, rfl⟩
  · exact ⟨.omitted, rfl⟩

theorem ne_sign_of_isDigit {c : Char} (h : isDigit c = true) : c ≠ '-' ∧ c ≠ '+' := by
  constructor
  · rintro rfl
    exact absurd h (by decide)
  · rintro rfl
    exact absurd h (by decide)

/-! ### Powers of ten -/

theorem power?_eq (t : Text) :
    power? t = if (splitSign t).2 != [] && (splitSign t).2.all isDigit then
      some (if (splitSign t).1 then -(digitsValue (splitSign t).2 : ℤ)
        else digitsValue (splitSign t).2)
    else none := rfl

theorem power?_text (p : TenPower) : power? (p.sign.text ++ p.digits) = some p.exponent := by
  have hhead : ∀ c ∈ p.digits.head?, c ≠ '-' ∧ c ≠ '+' := fun c hc =>
    ne_sign_of_isDigit (p.isDigit_digits c (List.mem_of_mem_head? hc))
  have hdigits : (p.digits != [] && p.digits.all isDigit) = true := by
    rw [Bool.and_eq_true, bne_iff_ne, List.all_eq_true]
    exact ⟨p.digits_ne_nil, p.isDigit_digits⟩
  rw [power?_eq, splitSign_text p.sign hhead, if_pos hdigits]
  rfl

/-- What is read as a power of ten is a sign and digits. -/
theorem exists_tenPower {c : Char} {t : Text} {n : ℤ} (hc : c = 'e' ∨ c = 'E')
    (h : power? t = some n) : ∃ p : TenPower, p.text = c :: t := by
  obtain ⟨sign, hsign⟩ := exists_sign t
  rw [power?_eq] at h
  have hdigits : ((splitSign t).2 != [] && (splitSign t).2.all isDigit) = true := by
    by_contra hnot
    rw [if_neg hnot] at h
    cases h
  rw [Bool.and_eq_true, bne_iff_ne, List.all_eq_true] at hdigits
  refine ⟨⟨c, sign, (splitSign t).2, hc, hdigits.1, hdigits.2⟩, ?_⟩
  rw [TenPower.text, ← hsign]

/-! ### Digits with a point and a power of ten -/

/-- The digits behind a point, and what follows them. -/
def behindPoint (t : Text) : Text × Text :=
  match t with
  | '.' :: more => (more.takeWhile isDigit, more.dropWhile isDigit)
  | _ => ([], t)

/-- The literal of the digits, so many of which stand behind the point, and a power of ten. -/
def withPower? (isNegative : Bool) (digits places : ℕ) (t : Text) : Option Literal :=
  match t with
  | [] => some (.decimal isNegative digits (-places))
  | c :: more =>
    if Text.lowerAscii c = 'e' then
      (power? more).map fun power => .decimal isNegative digits (power - places)
    else none

theorem decimal?_eq (isNegative : Bool) (t : Text) :
    decimal? isNegative t =
      if t.takeWhile isDigit = [] ∧ (behindPoint (t.dropWhile isDigit)).1 = [] then none
      else withPower? isNegative
        (digitsValue (t.takeWhile isDigit ++ (behindPoint (t.dropWhile isDigit)).1))
        (behindPoint (t.dropWhile isDigit)).1.length (behindPoint (t.dropWhile isDigit)).2 := rfl

theorem head?_tail (s : Scientific) : ∀ c ∈ s.tail.head?, c = 'e' ∨ c = 'E' := by
  intro c hc
  unfold Scientific.tail at hc
  cases hpower : s.power with
  | none =>
    rw [hpower] at hc
    cases hc
  | some p =>
    rw [hpower] at hc
    cases hc
    exact p.mark_eq

theorem isDigit_head?_tail (s : Scientific) : ∀ c ∈ s.tail.head?, isDigit c = false := by
  intro c hc
  obtain rfl | rfl := head?_tail s c hc <;> rfl

theorem behindPoint_text (s : Scientific) :
    behindPoint (s.point ++ s.tail) = (s.places, s.tail) := by
  have hfraction := s.isDigit_fraction
  unfold Scientific.point Scientific.places
  cases hpoint : s.fraction with
  | none =>
    have hhead := head?_tail s
    rw [Option.elim_none, List.nil_append, Option.getD_none]
    unfold behindPoint
    split
    · next more heq =>
      rw [heq] at hhead
      obtain h | h := hhead '.' rfl <;> exact absurd h (by decide)
    · rfl
  | some digits =>
    rw [hpoint] at hfraction
    have htake := Text.takeWhile_run hfraction (isDigit_head?_tail s)
    have hdrop := Text.dropWhile_run hfraction (isDigit_head?_tail s)
    exact Prod.ext htake hdrop

theorem withPower?_tail (isNegative : Bool) (digits places : ℕ) (s : Scientific) :
    withPower? isNegative digits places s.tail =
      some (.decimal isNegative digits (s.exponent - places)) := by
  unfold Scientific.tail Scientific.exponent
  cases s.power with
  | none => simp [withPower?]
  | some p =>
    have hmark : Text.lowerAscii p.mark = 'e' := by
      obtain h | h := p.mark_eq <;> rw [h] <;> rfl
    rw [Option.elim_some, Option.elim_some, TenPower.text, withPower?, if_pos hmark, power?_text,
      Option.map_some]

theorem isDigit_head?_point (s : Scientific) :
    ∀ c ∈ (s.point ++ s.tail).head?, isDigit c = false := by
  unfold Scientific.point
  cases s.fraction with
  | none => exact isDigit_head?_tail s
  | some digits =>
    rintro c ⟨⟩
    rfl

theorem decimal?_text (isNegative : Bool) (s : Scientific) :
    decimal? isNegative (s.whole ++ (s.point ++ s.tail)) =
      some (.decimal isNegative (digitsValue (s.whole ++ s.places))
        (s.exponent - s.places.length)) := by
  have htake := Text.takeWhile_run s.isDigit_whole (isDigit_head?_point s)
  have hdrop := Text.dropWhile_run s.isDigit_whole (isDigit_head?_point s)
  rw [decimal?_eq, htake, hdrop, behindPoint_text]
  exact (if_neg s.hasDigit).trans (withPower?_tail _ _ _ s)

theorem eq_mark_of_lowerAscii {c : Char} (h : Text.lowerAscii c = 'e') : c = 'e' ∨ c = 'E' := by
  unfold Text.lowerAscii at h
  split_ifs at h with hupper
  · right
    have hle : c.toNat ≤ 90 := UInt32.le_iff_toNat_le.mp hupper.2
    have hnat := congrArg Char.toNat h
    rw [Char.toNat_ofNat, if_pos (.inl (by omega))] at hnat
    apply Char.toNat_inj.mp
    have he : 'e'.toNat = 101 := rfl
    have hE : 'E'.toNat = 69 := rfl
    omega
  · exact .inl h

/-- What is taken for a point and digits is one. -/
theorem exists_fraction (t : Text) : ∃ fraction : Option Text,
    fraction.getD [] = (behindPoint t).1 ∧ (∀ c ∈ fraction.getD [], isDigit c = true) ∧
      t = (fraction.elim [] fun digits => '.' :: digits) ++ (behindPoint t).2 := by
  unfold behindPoint
  split
  · next more =>
    refine ⟨some (more.takeWhile isDigit), rfl, ?_, ?_⟩
    · exact fun c hc => List.mem_takeWhile_imp hc
    · rw [Option.elim_some, List.cons_append, List.takeWhile_append_dropWhile]
  · refine ⟨none, rfl, ?_, rfl⟩
    rintro c ⟨⟩

/-- What is taken for a power of ten is one. -/
theorem exists_tail {isNegative : Bool} {digits places : ℕ} {t : Text} {l : Literal}
    (h : withPower? isNegative digits places t = some l) :
    ∃ power : Option TenPower, t = power.elim [] TenPower.text := by
  cases t with
  | nil => exact ⟨none, rfl⟩
  | cons c more =>
    rw [withPower?] at h
    split_ifs at h with hmark
    obtain ⟨n, hn, -⟩ := Option.map_eq_some_iff.mp h
    obtain ⟨p, hp⟩ := exists_tenPower (eq_mark_of_lowerAscii hmark) hn
    exact ⟨some p, hp.symm⟩

/-- What is read as digits with a point and a power of ten is written so. -/
theorem exists_of_decimal? {isNegative : Bool} {t : Text} {l : Literal}
    (h : decimal? isNegative t = some l) (sign : Sign) :
    ∃ s : Scientific, s.sign = sign ∧ t = s.whole ++ (s.point ++ s.tail) := by
  rw [decimal?_eq] at h
  split_ifs at h with hdigits
  obtain ⟨fraction, hplaces, hfraction, hpoint⟩ := exists_fraction (t.dropWhile isDigit)
  obtain ⟨power, hpower⟩ := exists_tail h
  rw [← hplaces] at hdigits
  have hwhole : ∀ c ∈ t.takeWhile isDigit, isDigit c = true := fun c hc => List.mem_takeWhile_imp hc
  refine ⟨⟨sign, _, fraction, power, hwhole, hfraction, hdigits⟩, rfl, ?_⟩
  rw [Scientific.point, Scientific.tail, ← hpower, ← hpoint, List.takeWhile_append_dropWhile]

/-! ### Words -/

/-- The words that are literals, in lower case. -/
def words : List Text :=
  ["inf".toList, "infinity".toList, "nan".toList]

theorem parse?_eq (t : Text) :
    parse? t =
      if Text.toLowerAscii (splitSign t).2 = "inf".toList ∨
          Text.toLowerAscii (splitSign t).2 = "infinity".toList then
        some (.infinite (splitSign t).1)
      else if Text.toLowerAscii (splitSign t).2 = "nan".toList then some .notANumber
      else decimal? (splitSign t).1 (splitSign t).2 := rfl

/-- A word is no decimal. -/
theorem parse?_of_mem_words {t : Text} (h : Text.toLowerAscii (splitSign t).2 ∈ words) :
    (∃ isNegative, parse? t = some (.infinite isNegative)) ∨ parse? t = some .notANumber := by
  simp only [words, List.mem_cons, List.not_mem_nil, or_false] at h
  rw [parse?_eq]
  split_ifs with hinfinite hnan
  · exact .inl ⟨_, rfl⟩
  · exact .inr rfl
  · exact absurd ((or_assoc.mpr h).resolve_right hnan) hinfinite

/-- What is no word is read as digits. -/
theorem parse?_of_not_mem_words {t : Text}
    (h : Text.toLowerAscii (splitSign t).2 ∉ words) :
    parse? t = decimal? (splitSign t).1 (splitSign t).2 := by
  simp only [words, List.mem_cons, List.not_mem_nil, or_false, not_or] at h
  obtain ⟨hinf, hinfinity, hnan⟩ := h
  rw [parse?_eq, if_neg (not_or.mpr ⟨hinf, hinfinity⟩), if_neg hnan]

/-- What does not start with a letter is no word. -/
theorem toLowerAscii_not_mem_words {c : Char} {t : Text} (hc : c.isAlpha = false) :
    Text.toLowerAscii (c :: t) ∉ words := by
  have hupper : ¬ ('A' ≤ c ∧ c ≤ 'Z') := by
    intro h
    have hisUpper : c.isUpper = true := decide_eq_true h
    rw [Char.isAlpha, hisUpper] at hc
    cases hc
  have hlow : Text.lowerAscii c = c := if_neg hupper
  intro h
  simp only [words, List.mem_cons, List.not_mem_nil, or_false, Text.toLowerAscii, List.map_cons,
    hlow] at h
  obtain h | h | h := h
  all_goals
    rw [(List.cons.inj h).1] at hc
    exact absurd hc (by decide)

theorem exists_body_eq_cons (s : Scientific) :
    ∃ c t, s.whole ++ (s.point ++ s.tail) = c :: t ∧ c.isAlpha = false ∧ c ≠ '-' ∧ c ≠ '+' := by
  have hwhole := s.isDigit_whole
  have hdigit := s.hasDigit
  unfold Scientific.point
  cases hw : s.whole with
  | cons c whole =>
    rw [hw] at hwhole
    have hc := hwhole c List.mem_cons_self
    exact ⟨c, _, rfl, isAlpha_eq_false_of_isDigit hc, ne_sign_of_isDigit hc⟩
  | nil =>
    cases hf : s.fraction with
    | none =>
      rw [hw, hf] at hdigit
      exact absurd ⟨rfl, rfl⟩ hdigit
    | some digits => exact ⟨'.', _, rfl, by decide⟩

/-- **A decimal literal is read** as its digits and the power of ten of the last of them. -/
theorem parse?_text (s : Scientific) :
    parse? s.text = some (.decimal s.sign.isNegative (digitsValue (s.whole ++ s.places))
      (s.exponent - s.places.length)) := by
  have hdecimal := decimal?_text s.sign.isNegative s
  obtain ⟨c, t, hbody, halpha, hc⟩ := exists_body_eq_cons s
  rw [hbody] at hdecimal
  have hhead : ∀ d ∈ (c :: t).head?, d ≠ '-' ∧ d ≠ '+' := by
    rintro d ⟨⟩
    exact hc
  have hsign := splitSign_text s.sign hhead
  rw [Scientific.text, hbody, parse?_of_not_mem_words, hsign, hdecimal]
  rw [hsign]
  exact toLowerAscii_not_mem_words halpha

/-- **Nothing else is read as a decimal.** -/
theorem exists_scientific_of_parse? {t : Text} {isNegative : Bool} {digits : ℕ} {power : ℤ}
    (h : parse? t = some (.decimal isNegative digits power)) : ∃ s : Scientific, s.text = t := by
  obtain ⟨sign, ht⟩ := exists_sign t
  have hword : Text.toLowerAscii (splitSign t).2 ∉ words := by
    intro hword
    obtain ⟨_, hinfinite⟩ | hnan := parse?_of_mem_words hword
    · rw [hinfinite] at h
      cases h
    · rw [hnan] at h
      cases h
  rw [parse?_of_not_mem_words hword] at h
  obtain ⟨s, rfl, hs⟩ := exists_of_decimal? h sign
  exact ⟨s, by rw [Scientific.text, ← hs, ← ht]⟩

/-- **The words are infinity and what is no number**, whatever their sign and the case of their
letters. -/
theorem parse?_word (sign : Sign) {word : Text} (h : Text.toLowerAscii word ∈ words) :
    (∃ isNegative, parse? (sign.text ++ word) = some (.infinite isNegative)) ∨
      parse? (sign.text ++ word) = some .notANumber := by
  apply parse?_of_mem_words
  rw [splitSign_text]
  · exact h
  · intro c hc
    obtain ⟨rest, rfl⟩ := List.head?_eq_some_iff.mp hc
    constructor
    · rintro rfl
      exact toLowerAscii_not_mem_words (by decide) h
    · rintro rfl
      exact toLowerAscii_not_mem_words (by decide) h

end Literal

end MetricsBridge
