import MetricsBridge.Text.Base64

/-!
# Reading back base64

The bytes that were written are read back from their digits, so different bytes have different
digits.  The step is that a digit has its own value, and is not the padding.
-/
namespace MetricsBridge.Base64

theorem digitValue?_digit {n : Nat} (h : n < 64) : digitValue? (digit n) = some n := by
  have hall : ∀ m < 64, digitValue? (digit m) = some m := by decide +kernel
  exact hall n h

theorem digit_ne_padding {n : Nat} (h : n < 64) : digit n ≠ '=' := by
  intro he
  have hv := digitValue?_digit h
  rw [he, show digitValue? '=' = none from rfl] at hv
  cases hv

/-- A group that does not end with padding is read as three bytes. -/
theorem decode?_cons {d : Char} (hd : d ≠ '=') (a b c : Char) (rest : Text) :
    decode? (a :: b :: c :: d :: rest) = (do
      let n := (← digitValue? a) * 262144 + (← digitValue? b) * 4096 + (← digitValue? c) * 64
        + (← digitValue? d)
      return UInt8.ofNat (n / 65536) :: UInt8.ofNat (n / 256 % 256) :: UInt8.ofNat (n % 256)
        :: (← decode? rest)) := by
  rw [decode?]
  · rintro rfl rfl
    exact absurd rfl hd
  · rintro rfl
    exact absurd rfl hd

/-- A group that ends with one padding is read as two bytes. -/
theorem decode?_padded {c : Char} (hc : c ≠ '=') (a b : Char) :
    decode? [a, b, c, '='] = (do
      let n := (← digitValue? a) * 4096 + (← digitValue? b) * 64 + (← digitValue? c)
      return [UInt8.ofNat (n / 1024), UInt8.ofNat (n / 4 % 256)]) := by
  rw [decode?]
  exact hc

theorem ofNat_eq_of_toNat {a : UInt8} {n : Nat} (h : n = a.toNat) : UInt8.ofNat n = a := by
  rw [h, UInt8.ofNat_toNat]

/-- **Bytes are read back from their digits.** -/
theorem decode?_encode (bytes : List UInt8) : decode? (encode bytes) = some bytes := by
  induction bytes using encode.induct with
  | case1 => rfl
  | case2 a =>
    have ha := a.toNat_lt
    simp only [encode, decode?, digitValue?_digit (show a.toNat * 65536 / 262144 < 64 by omega),
      digitValue?_digit (show a.toNat * 65536 / 4096 % 64 < 64 by omega), Option.bind_eq_bind,
      Option.bind_some, Option.pure_def]
    rw [ofNat_eq_of_toNat (a := a) (by omega)]
  | case3 a b =>
    have ha := a.toNat_lt
    have hb := b.toNat_lt
    rw [encode]
    rw [decode?_padded (digit_ne_padding (by omega)), digitValue?_digit (by omega),
      digitValue?_digit (by omega), digitValue?_digit (by omega)]
    simp only [Option.bind_eq_bind, Option.bind_some, Option.pure_def]
    rw [ofNat_eq_of_toNat (a := a) (by omega), ofNat_eq_of_toNat (a := b) (by omega)]
  | case4 a b c rest ih =>
    have ha := a.toNat_lt
    have hb := b.toNat_lt
    have hc := c.toNat_lt
    rw [encode]
    rw [decode?_cons (digit_ne_padding (by omega)), digitValue?_digit (by omega),
      digitValue?_digit (by omega), digitValue?_digit (by omega), digitValue?_digit (by omega), ih]
    simp only [Option.bind_eq_bind, Option.bind_some, Option.pure_def]
    rw [ofNat_eq_of_toNat (a := a) (by omega), ofNat_eq_of_toNat (a := b) (by omega),
      ofNat_eq_of_toNat (a := c) (by omega)]

theorem encode_injective {s t : List UInt8} (h : encode s = encode t) : s = t := by
  have hs := decode?_encode s
  rw [h, decode?_encode, Option.some.injEq] at hs
  exact hs.symm

/-! ### What is written -/

theorem digit_mem (n : Nat) : digit n ∈ '=' :: alphabet := by
  unfold digit
  rw [List.getD_eq_getElem?_getD]
  cases h : alphabet[n]? with
  | none => exact List.mem_cons_self
  | some c => exact List.mem_cons_of_mem _ (List.mem_of_getElem? h)

/-- Digits and padding are all that is written. -/
theorem mem_encode {c : Char} {bytes : List UInt8} (h : c ∈ encode bytes) :
    c ∈ '=' :: alphabet := by
  induction bytes using encode.induct with
  | case1 => cases h
  | case2 a =>
    simp only [encode, List.mem_cons, List.not_mem_nil, or_false] at h
    rcases h with rfl | rfl | rfl | rfl
    · exact digit_mem _
    · exact digit_mem _
    · exact List.mem_cons_self
    · exact List.mem_cons_self
  | case3 a b =>
    simp only [encode, List.mem_cons, List.not_mem_nil, or_false] at h
    rcases h with rfl | rfl | rfl | rfl
    · exact digit_mem _
    · exact digit_mem _
    · exact digit_mem _
    · exact List.mem_cons_self
  | case4 a b c rest ih =>
    simp only [encode, List.mem_cons] at h
    rcases h with rfl | rfl | rfl | rfl | h
    · exact digit_mem _
    · exact digit_mem _
    · exact digit_mem _
    · exact digit_mem _
    · exact ih h

end MetricsBridge.Base64
