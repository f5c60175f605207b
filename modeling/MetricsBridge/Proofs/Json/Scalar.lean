import MetricsBridge.Proofs.Json.Steps
import MetricsBridge.Proofs.Number.Rendering

/-!
# Words, texts and numbers that have been written

A text is read back from its escapes (`yields_quoted`) and a number from its digits
(`yields_number`), whatever follows that does not go on with the number.  Of a binary64 number this
says that it is read behind other text as it is read alone (`exists_writes_double`).
-/
namespace MetricsBridge.Json

/-- A reading that brings `a` and leaves `rest`. -/
def Yields {α : Type} (r : Reading (α × Cursor)) (a : α) (rest : Text) : Prop :=
  ∃ next, r = .ok (a, next) ∧ next.rest = rest

/-- The text of the binary64 number is read as that number. -/
def IsExact (x : Double) : Prop :=
  parse x.render = .ok (.number (.double x))

/-- Whether a reading brought the binary64 number. -/
def broughtDouble (x : Double) : Reading Json → Bool
  | .ok (.number (.double y)) => y == x
  | _ => false

instance (x : Double) : Decidable (IsExact x) :=
  decidable_of_iff (broughtDouble x (parse x.render) = true) <| by
    rw [IsExact]
    constructor
    · intro h
      unfold broughtDouble at h
      split at h
      · next y hparse => rw [hparse, beq_iff_eq.mp h]
      · cases h
    · intro h
      rw [h]
      exact beq_self_eq_true x

/-! ### Integers -/

theorem le_ofDigitChars (t : Text) (value : Nat) : value ≤ Nat.ofDigitChars 10 t value := by
  induction t generalizing value with
  | nil => exact Nat.le_of_eq Nat.ofDigitChars_nil.symm
  | cons c t ih =>
    rw [Nat.ofDigitChars_cons]
    have h := ih (10 * value + (c.toNat - '0'.toNat))
    omega

/-- All digits are taken if the number that they write stays below the bound. -/
theorem boundedDigits_of_lt {bound : Nat} {t : Text} (ht : ∀ c ∈ t, isDigit c = true) :
    ∀ {value taken : Nat}, Nat.ofDigitChars 10 t value < bound →
    boundedDigits bound value taken t = (Nat.ofDigitChars 10 t value, taken + t.length, []) := by
  induction t with
  | nil =>
    intro value taken _
    rw [boundedDigits, Nat.ofDigitChars_nil]
    rfl
  | cons c t ih =>
    intro value taken hlt
    rw [Nat.ofDigitChars_cons] at hlt ⊢
    have hle := le_ofDigitChars t (10 * value + (c.toNat - '0'.toNat))
    have hc : 10 * value + digitValue c < bound := Nat.lt_of_le_of_lt hle hlt
    rw [boundedDigits, if_pos ⟨ht c List.mem_cons_self, hc⟩]
    have hlength : taken + (c :: t).length = taken + 1 + t.length := by
      rw [List.length_cons]
      omega
    rw [hlength]
    exact ih (fun c hc => ht c (List.mem_cons_of_mem _ hc)) hlt

/-- Only zero is written with a zero in front. -/
theorem eq_zero_of_ofNat {n : Nat} : ∀ {rest : Text}, Text.ofNat n = '0' :: rest → n = 0 := by
  induction n using Nat.strongRecOn with
  | ind n ih =>
    intro rest h
    rw [Text.ofNat] at h
    by_cases hn : n < 10
    · rw [Nat.toDigits_of_lt_base hn] at h
      have hzero : 48 + n = 48 := by
        rw [← Nat.toNat_digitChar_of_lt_ten hn, (List.cons.inj h).1]
        rfl
      exact Nat.add_eq_left.mp hzero
    · have hle : 10 ≤ n := Nat.le_of_not_lt hn
      rw [Nat.toDigits_of_base_le (by decide) hle] at h
      cases hfront : Nat.toDigits 10 (n / 10) with
      | nil => exact absurd hfront Nat.toDigits_ne_nil
      | cons c front =>
        rw [hfront, List.cons_append] at h
        have hc := (List.cons.inj h).1
        subst hc
        have := ih (n / 10) (by omega) hfront
        omega

namespace Cursor

variable {cur next : Cursor} {isNegative : Bool}

/-- A natural number is read as the digits it is written in. -/
theorem numeral_of_ofNat {n : Nat} (hn : n < Nat.pow 2 64) (hcur : cur.rest = Text.ofNat n) :
    ∃ next : Cursor, cur.numeral isNegative = next.integer isNegative n 0 ∧ next.rest = [] := by
  have hvalue : Nat.ofDigitChars 10 (Text.ofNat n) 0 = n := Nat.ofDigitChars_ten_toDigits
  cases hdigits : Text.ofNat n with
  | nil => exact absurd hdigits Nat.toDigits_ne_nil
  | cons c t =>
    rw [hdigits] at hcur hvalue
    have hall : ∀ d ∈ c :: t, isDigit d = true := hdigits ▸ isDigit_ofNat n
    rw [numeral_of_cons hcur]
    split
    · next hc =>
      subst hc
      obtain rfl := eq_zero_of_ofNat hdigits
      cases hdigits
      have hends : EndsNumber (cur.ahead 1 []).rest := endsNumber_nil
      exact ⟨cur.ahead 1 [], afterInteger_of_endsNumber hends 0 0, rfl⟩
    · rw [if_pos (hall c List.mem_cons_self), boundedDigits_of_lt hall (hvalue.symm ▸ hn), hvalue]
      have hends : EndsNumber (cur.ahead (0 + (c :: t).length) []).rest := endsNumber_nil
      exact ⟨_, afterInteger_of_endsNumber hends n 0, rfl⟩

/-! ### Tokens -/

variable {c : Char} {t more : Text} {steps depth : Nat} {isFirst : Bool}

theorem skipSpaces_of_not_space (hcur : cur.rest = c :: t) (hc : isSpace c = false) :
    cur.skipSpaces = cur := by
  have hline : c ≠ '\n' := by
    rintro rfl
    exact absurd hc (by decide)
  rw [skipSpaces, hcur, afterSpaces, if_neg hline, if_neg (Bool.not_eq_true _ ▸ hc), ← hcur]

theorem word_append (w : Text) : ∀ {cur : Cursor}, cur.rest = w ++ more →
    ∃ next, cur.word w = .ok next ∧ next.rest = more := by
  induction w with
  | nil => exact fun {cur} hcur => ⟨cur, rfl, hcur⟩
  | cons letter w ih =>
    intro cur hcur
    have hbehind : (cur.ahead 1 (w ++ more)).rest = w ++ more := rfl
    obtain ⟨next, hnext, hrest⟩ := ih hbehind
    refine ⟨next, ?_, hrest⟩
    rw [word, hcur]
    exact (if_pos rfl).trans hnext

/-- The number that a digit starts. -/
theorem value_of_digit (hcur : cur.rest = c :: t) (hc : isDigit c = true) :
    value (steps + 1) depth cur =
      (cur.numeral false).bind fun x => .ok (.number x.1, x.2) := by
  have hn : ∀ d, isDigit d = false → c ≠ d := by
    rintro d hd rfl
    exact Bool.false_ne_true (hd.symm.trans hc)
  have hspace : isSpace c = false := by
    simp [isSpace, hn ' ' rfl, hn '\n' rfl, hn '\t' rfl, hn '\r' rfl]
  rw [value, skipSpaces_of_not_space hcur hspace, hcur]
  dsimp only
  rw [if_neg (hn 'n' rfl), if_neg (hn 't' rfl), if_neg (hn 'f' rfl), if_neg (hn '-' rfl), if_pos hc]
  rfl

theorem value_of_minus (hcur : cur.rest = '-' :: t) : value (steps + 1) depth cur =
      ((cur.ahead 1 t).numeral true).bind fun x => .ok (.number x.1, x.2) := by
  rw [value, skipSpaces_of_not_space hcur (by decide), hcur]
  rfl

theorem value_of_quote (hcur : cur.rest = '"' :: t) : value (steps + 1) depth cur =
      (quoted steps [] (cur.ahead 1 t)).bind fun x => .ok (.text x.1, x.2) := by
  rw [value, skipSpaces_of_not_space hcur (by decide), hcur]
  rfl

theorem value_of_n (hcur : cur.rest = 'n' :: t) : value (steps + 1) depth cur =
      ((cur.ahead 1 t).word "ull".toList).bind fun next => .ok (.null, next) := by
  rw [value, skipSpaces_of_not_space hcur (by decide), hcur]
  rfl

theorem value_of_t (hcur : cur.rest = 't' :: t) : value (steps + 1) depth cur =
      ((cur.ahead 1 t).word "rue".toList).bind fun next => .ok (.bool true, next) := by
  rw [value, skipSpaces_of_not_space hcur (by decide), hcur]
  rfl

theorem value_of_f (hcur : cur.rest = 'f' :: t) : value (steps + 1) depth cur =
      ((cur.ahead 1 t).word "alse".toList).bind fun next => .ok (.bool false, next) := by
  rw [value, skipSpaces_of_not_space hcur (by decide), hcur]
  rfl

/-- The value that a word stands for. -/
theorem yields_word {j : Json} {w : Text}
    (h : value steps depth cur = ((cur.ahead 1 t).word w).bind fun next => .ok (j, next))
    (ht : t = w ++ more) : Yields (value steps depth cur) j more := by
  have hbehind : (cur.ahead 1 t).rest = w ++ more := ht
  obtain ⟨next, hword, hrest⟩ := word_append w hbehind
  refine ⟨next, ?_, hrest⟩
  rw [h, hword]
  rfl

/-! ### Texts -/

theorem hexNumber?_control {n : Nat} (h : n < 0x20) :
    hexNumber? ['0', '0', hexDigit (n / 16), hexDigit (n % 16)] = some n := by
  have hall : ∀ n : Fin 0x20,
      hexNumber? ['0', '0', hexDigit (n / 16), hexDigit (n % 16)] = some n.val := by
    decide
  exact hall ⟨n, h⟩

theorem quoted_of_escape {e : Char} (hcur : cur.rest = '\\' :: t)
    (h : (cur.ahead 1 t).escape = .ok (e, next)) (read : Text) :
    quoted (steps + 1) read cur = quoted steps (e :: read) next := by
  rw [quoted, hcur]
  simp only [Char.reduceEq, if_false, if_true]
  rw [h]

theorem escape_of_letter {d e : Char} (hcur : cur.rest = d :: t) (hd : d ≠ 'u')
    (he : escaped? d = some e) : cur.escape = .ok (e, cur.ahead 1 t) := by
  rw [escape, hcur]
  dsimp only
  rw [if_neg hd, he]

theorem escape_of_control (hc : c.toNat < 0x20)
    (hcur : cur.rest =
      'u' :: '0' :: '0' :: hexDigit (c.toNat / 16) :: hexDigit (c.toNat % 16) :: t) :
    cur.escape = .ok (c, cur.ahead 5 t) := by
  have hlow : isLowSurrogate c.toNat = false := by
    rw [isLowSurrogate, Bool.and_eq_false_iff]
    exact .inl (decide_eq_false (by omega))
  have hhigh : isHighSurrogate c.toNat = false := by
    rw [isHighSurrogate, Bool.and_eq_false_iff]
    exact .inl (decide_eq_false (by omega))
  rw [escape, hcur]
  dsimp only
  rw [if_pos rfl, unicodeEscape, hexEscape]
  dsimp only [ahead]
  rw [hexNumber?_control hc]
  simp only [bind, Except.bind, hlow, hhigh, Char.ofNat_toNat]
  rfl

/-- **A character is read from its escape.** -/
theorem quoted_escapeChar (hcur : cur.rest = escapeChar c ++ t) (read : Text) : ∃ next : Cursor,
    quoted (steps + 1) read cur = quoted steps (c :: read) next ∧ next.rest = t := by
  have hletter : ∀ d, d ≠ 'u' → escaped? d = some c → cur.rest = '\\' :: d :: t →
      ∃ next : Cursor, quoted (steps + 1) read cur = quoted steps (c :: read) next ∧
        next.rest = t := by
    intro d hd he hcur
    exact ⟨_, quoted_of_escape hcur (escape_of_letter rfl hd he) read, rfl⟩
  unfold escapeChar at hcur
  split_ifs at hcur with h₁ h₂ h₃ h₄ h₅ h₆ h₇ hcontrol
  · exact hletter '"' (by decide) (by rw [h₁]; rfl) hcur
  · exact hletter '\\' (by decide) (by rw [h₂]; rfl) hcur
  · exact hletter 'n' (by decide) (h₃ ▸ rfl) hcur
  · exact hletter 'r' (by decide) (h₄ ▸ rfl) hcur
  · exact hletter 't' (by decide) (h₅ ▸ rfl) hcur
  · exact hletter 'b' (by decide) (h₆ ▸ rfl) hcur
  · exact hletter 'f' (by decide) (h₇ ▸ rfl) hcur
  · exact ⟨_, quoted_of_escape hcur (escape_of_control hcontrol rfl) read, rfl⟩
  · refine ⟨cur.past c t, ?_, rest_past cur c t⟩
    rw [quoted, hcur]
    dsimp only [List.cons_append, List.nil_append]
    rw [if_neg h₁, if_neg h₂, if_neg hcontrol]

/-- **Quoting a text is undone by reading it.** -/
theorem yields_quoted (t : Text) : ∀ {steps : Nat} {read : Text} {cur : Cursor},
    t.length < steps → cur.rest = t.flatMap escapeChar ++ '"' :: more →
    Yields (quoted steps read cur) (read.reverse ++ t) more := by
  induction t with
  | nil =>
    intro steps read cur hsteps hcur
    obtain ⟨steps, rfl⟩ := Nat.exists_eq_add_of_lt hsteps
    refine ⟨cur.ahead 1 more, ?_, rfl⟩
    rw [quoted, hcur, List.append_nil]
    rfl
  | cons c t ih =>
    intro steps read cur hsteps hcur
    cases steps with
    | zero => exact absurd hsteps (Nat.not_lt_zero _)
    | succ steps =>
      rw [List.flatMap_cons, List.append_assoc] at hcur
      obtain ⟨next, hnext, hrest⟩ := quoted_escapeChar hcur read
      have h : Yields (quoted steps (c :: read) next) ((c :: read).reverse ++ t) more :=
        ih (Nat.lt_of_succ_lt_succ hsteps) hrest
      rw [List.reverse_cons, List.append_assoc] at h
      rw [hnext]
      exact h

/-! ### Numbers -/

/-- Behind the sign the text is that of the number. -/
def Writes (isNegative : Bool) (t : Text) (n : Numeral) : Prop :=
  ∃ first last : Cursor, first.rest = t ∧ first.numeral isNegative = .ok (n, last) ∧ last.rest = []

theorem writes_natural {n : Nat} (hn : n < Nat.pow 2 64) :
    Writes false (Text.ofNat n) (.natural n) := by
  have hstart : (start (Text.ofNat n)).rest = Text.ofNat n := rfl
  obtain ⟨last, hread, hlast⟩ := numeral_of_ofNat hn hstart
  exact ⟨_, last, rfl, hread, hlast⟩

theorem writes_negative {n : Nat} (hpos : 0 < n) (hn : n ≤ Nat.pow 2 63) :
    Writes true (Text.ofNat n) (.negative n) := by
  have hlt : n < Nat.pow 2 64 := Nat.lt_of_le_of_lt hn (by decide)
  have hstart : (start (Text.ofNat n)).rest = Text.ofNat n := rfl
  obtain ⟨last, hread, hlast⟩ := numeral_of_ofNat hlt hstart
  refine ⟨_, last, rfl, hread.trans ?_, hlast⟩
  have hrange : ¬ (n = 0 ∨ Nat.pow 2 63 < n) := by
    rintro (h | h)
    · exact absurd h (Nat.ne_of_gt hpos)
    · exact absurd hn (Nat.not_le_of_lt h)
  rw [integer, if_neg (not_not_intro rfl), if_neg (by decide), if_neg hrange]

theorem isSpace_of_isMark (hc : Numeral.isMark c = true) : isSpace c = false := by
  cases hspace : isSpace c with
  | false => rfl
  | true =>
    simp only [isSpace, Bool.or_eq_true, beq_iff_eq] at hspace
    rcases hspace with ((rfl | rfl) | rfl) | rfl <;> exact absurd hc (by decide)

/-- The end of a number is the end of the text. -/
theorem rest_of_finish {t : Text} (ht : ∀ c ∈ t, Numeral.isMark c = true)
    (hlast : next.rest <:+ t) (hfinish : next.finish = .ok ()) : next.rest = [] := by
  cases hrest : next.rest with
  | nil => rfl
  | cons c rest =>
    have hc : isSpace c = false := isSpace_of_isMark (ht c (hlast.mem (hrest ▸ List.mem_cons_self)))
    rw [finish, skipSpaces_of_not_space hrest hc, hrest] at hfinish
    cases hfinish

/-- An exact number is written as its digits behind a sign. -/
theorem exists_writes_double {x : Double} (h : IsExact x) :
    ∃ isNegative t, x.render = (if isNegative then ['-'] else []) ++ t ∧
      Writes isNegative t (.double x) := by
  simp only [IsExact, parse, bind_eq_ok, pure_eq_ok] at h
  obtain ⟨⟨j, last⟩, hvalue, _, hfinish, rfl⟩ := h
  have hmarks : ∀ c ∈ x.render, Numeral.isMark c = true := isMark_of_mem_render (.double x)
  cases hrender : x.render with
  | nil => exact absurd hrender (render_ne_nil (.double x))
  | cons c t =>
    rw [hrender] at hvalue hmarks
    have hstart : (start (c :: t)).rest = c :: t := rfl
    have hc := hmarks c List.mem_cons_self
    simp only [Numeral.isMark, Bool.or_eq_true, beq_iff_eq] at hc
    rcases hc with (((hc | rfl) | rfl) | rfl) | rfl
    · rw [enoughSteps, value_of_digit hstart hc] at hvalue
      simp only [except_bind_eq_ok, Except.ok.injEq, Prod.mk.injEq, Json.number.injEq] at hvalue
      obtain ⟨⟨n, _⟩, hread, rfl, rfl⟩ := hvalue
      have hsuffix := rest_suffix_of_skipNumeral (skipNumeral_of_numeral hread)
      exact ⟨false, c :: t, rfl, _, _, rfl, hread, rest_of_finish hmarks hsuffix hfinish⟩
    · rw [enoughSteps, value_of_minus hstart] at hvalue
      simp only [except_bind_eq_ok, Except.ok.injEq, Prod.mk.injEq, Json.number.injEq] at hvalue
      obtain ⟨⟨n, _⟩, hread, rfl, rfl⟩ := hvalue
      have hsuffix := rest_suffix_of_skipNumeral (skipNumeral_of_numeral hread)
      have hbehind : ∀ c ∈ t, Numeral.isMark c = true :=
        fun c hc => hmarks c (List.mem_cons_of_mem _ hc)
      exact ⟨true, t, rfl, _, _, rfl, hread, rest_of_finish hbehind hsuffix hfinish⟩
    all_goals
      rw [enoughSteps, value, skipSpaces_of_not_space hstart (by decide), hstart] at hvalue
      cases hvalue

theorem isDigit_of_numeral {n : Numeral} (h : cur.numeral isNegative = .ok (n, next)) :
    ∃ c t, cur.rest = c :: t ∧ isDigit c = true := by
  cases hcur : cur.rest with
  | nil =>
    rw [numeral, hcur] at h
    cases h
  | cons c t =>
    refine ⟨c, t, rfl, ?_⟩
    rw [numeral_of_cons hcur] at h
    split at h
    · next hc =>
      rw [hc]
      rfl
    · split at h
      · next hc => exact hc
      · cases h

/-- A number is read from its text, unless what follows goes on with it. -/
theorem yields_number {n : Numeral} (h : Writes isNegative t n) (hmore : EndsNumber more)
    (hcur : cur.rest = (if isNegative then ['-'] else []) ++ t ++ more) :
    Yields (value (steps + 1) depth cur) (.number n) more := by
  obtain ⟨first, last, rfl, hread, hlast⟩ := h
  have hgoes : ∀ {cur : Cursor}, cur.rest = first.rest ++ more →
      Yields (cur.numeral isNegative) n more := by
    intro cur hcur
    obtain ⟨next, hnext, hrest⟩ := goesOn_numeral hmore hread hcur
    rw [hlast] at hrest
    exact ⟨next, hnext, hrest⟩
  cases isNegative with
  | true =>
    have hbehind : (cur.ahead 1 (first.rest ++ more)).rest = first.rest ++ more := rfl
    obtain ⟨next, hnext, hrest⟩ := hgoes hbehind
    refine ⟨next, ?_, hrest⟩
    rw [value_of_minus hcur]
    exact congrArg (Except.bind · _) hnext
  | false =>
    obtain ⟨next, hnext, hrest⟩ := hgoes hcur
    obtain ⟨c, rest, hcons, hdigit⟩ := isDigit_of_numeral hnext
    refine ⟨next, ?_, hrest⟩
    rw [value_of_digit hcons hdigit, hnext]
    rfl

end Cursor

end MetricsBridge.Json
