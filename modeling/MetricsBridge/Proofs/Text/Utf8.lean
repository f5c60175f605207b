import MetricsBridge.Text.Utf8

/-!
# Reading back UTF-8

The bytes of a text stand for that text: `Utf8.decode?` and `Utf8.decodeLossy` both give it back.
The step is `head_encodeChar`: in front of any bytes, the bytes of a character are read as it.
-/
namespace MetricsBridge.Utf8

@[simp] theorem encode_nil : encode [] = [] := rfl

@[simp] theorem encode_cons (c : Char) (t : Text) : encode (c :: t) = encodeChar c ++ encode t := by
  simp [encode]

/-- The number of a byte is not changed by making it a byte. -/
theorem toNat_ofNat_of_lt {n : Nat} (h : n < 256) : (UInt8.ofNat n).toNat = n := by
  simp [Nat.mod_eq_of_lt h]

theorem toNat_tail (n : Nat) : (UInt8.ofNat (n % 64 + 128)).toNat = n % 64 + 128 :=
  toNat_ofNat_of_lt (by omega)

@[simp] theorem isTail_ofNat (n : Nat) : isTail (UInt8.ofNat (n % 64 + 128)) = true := by
  simp only [isTail, UInt8.le_iff_toNat_le, toNat_tail, Bool.and_eq_true, decide_eq_true_eq]
  exact ⟨by simp, by simp; omega⟩

@[simp] theorem tailBits_ofNat (n : Nat) : tailBits (UInt8.ofNat (n % 64 + 128)) = n % 64 := by
  rw [tailBits, toNat_tail]
  omega

/-- `head` with its conditions on the number of the first byte. -/
theorem head_eq (a : UInt8) (rest : List UInt8) : head a rest =
    if a.toNat ≤ 127 then .char (Char.ofNat a.toNat) 1
    else if 194 ≤ a.toNat ∧ a.toNat ≤ 223 then
      match rest with
      | b :: _ =>
        if isTail b then .char (Char.ofNat (a.toNat % 32 * 64 + tailBits b)) 2 else .broken 1
      | [] => .broken 1
    else if a.toNat = 224 then headOfThree 0xA0 0xBF a rest
    else if a.toNat = 237 then headOfThree 0x80 0x9F a rest
    else if 225 ≤ a.toNat ∧ a.toNat ≤ 239 then headOfThree 0x80 0xBF a rest
    else if a.toNat = 240 then headOfFour 0x90 0xBF a rest
    else if 241 ≤ a.toNat ∧ a.toNat ≤ 243 then headOfFour 0x80 0xBF a rest
    else if a.toNat = 244 then headOfFour 0x80 0x8F a rest
    else .broken 1 := by
  simp only [head, UInt8.le_iff_toNat_le, Bool.and_eq_true, decide_eq_true_eq, beq_iff_eq,
    ← UInt8.toNat_inj]
  rfl

theorem headOfThree_of_le {low high a b c : UInt8} {rest : List UInt8}
    (hl : low.toNat ≤ b.toNat) (hh : b.toNat ≤ high.toNat) (hc : isTail c = true) :
    headOfThree low high a (b :: c :: rest) =
      .char (Char.ofNat (a.toNat % 16 * 4096 + tailBits b * 64 + tailBits c)) 3 := by
  simp [headOfThree, UInt8.le_iff_toNat_le, hl, hh, hc]

theorem headOfFour_of_le {low high a b c d : UInt8} {rest : List UInt8}
    (hl : low.toNat ≤ b.toNat) (hh : b.toNat ≤ high.toNat) (hc : isTail c = true)
    (hd : isTail d = true) :
    headOfFour low high a (b :: c :: d :: rest) =
      .char (Char.ofNat
        (a.toNat % 8 * 262144 + tailBits b * 4096 + tailBits c * 64 + tailBits d)) 4 := by
  simp [headOfFour, UInt8.le_iff_toNat_le, hl, hh, hc, hd]

/-! ### Sequences of two, three and four bytes -/

theorem head_of_two {v : Nat} (h1 : 127 < v) (h2 : v ≤ 2047) (rest : List UInt8) :
    head (UInt8.ofNat (v / 64 % 32 + 192)) (UInt8.ofNat (v % 64 + 128) :: rest) =
      .char (Char.ofNat v) 2 := by
  have ha : (UInt8.ofNat (v / 64 % 32 + 192)).toNat = v / 64 + 192 := by
    rw [toNat_ofNat_of_lt (by omega)]
    omega
  rw [head_eq, if_neg (by omega), if_pos (by omega)]
  simp only [isTail_ofNat, tailBits_ofNat, ha, if_true]
  rw [show (v / 64 + 192) % 32 * 64 + v % 64 = v by omega]

/-- The first byte narrows the range of the second where a shorter form or a surrogate would be. -/
theorem head_of_three {v : Nat} (h1 : 2047 < v) (h2 : v ≤ 65535)
    (hs : v < 0xD800 ∨ 0xDFFF < v) (rest : List UInt8) :
    head (UInt8.ofNat (v / 4096 % 16 + 224))
      (UInt8.ofNat (v / 64 % 64 + 128) :: UInt8.ofNat (v % 64 + 128) :: rest) =
      .char (Char.ofNat v) 3 := by
  have ha : (UInt8.ofNat (v / 4096 % 16 + 224)).toNat = v / 4096 + 224 := by
    rw [toNat_ofNat_of_lt (by omega)]
    omega
  have hb := toNat_tail (v / 64)
  have hr : (v / 4096 + 224) % 16 * 4096 + v / 64 % 64 * 64 + v % 64 = v := by omega
  rw [head_eq, if_neg (by omega), if_neg (by omega)]
  by_cases h0 : v / 4096 = 0
  · rw [if_pos (by omega), headOfThree_of_le (by simp; omega) (by simp; omega) (isTail_ofNat v)]
    simp only [ha, tailBits_ofNat, hr]
  · by_cases h13 : v / 4096 = 13
    · rw [if_neg (by omega), if_pos (by omega),
        headOfThree_of_le (by simp; omega) (by simp; omega) (isTail_ofNat v)]
      simp only [ha, tailBits_ofNat, hr]
    · rw [if_neg (by omega), if_neg (by omega), if_pos (by omega),
        headOfThree_of_le (by simp; omega) (by simp; omega) (isTail_ofNat v)]
      simp only [ha, tailBits_ofNat, hr]

theorem head_of_four {v : Nat} (h1 : 65535 < v) (h2 : v < 0x110000) (rest : List UInt8) :
    head (UInt8.ofNat (v / 262144 % 8 + 240))
      (UInt8.ofNat (v / 4096 % 64 + 128) :: UInt8.ofNat (v / 64 % 64 + 128) ::
        UInt8.ofNat (v % 64 + 128) :: rest) =
      .char (Char.ofNat v) 4 := by
  have ha : (UInt8.ofNat (v / 262144 % 8 + 240)).toNat = v / 262144 + 240 := by
    rw [toNat_ofNat_of_lt (by omega)]
    omega
  have hb := toNat_tail (v / 4096)
  have hr : (v / 262144 + 240) % 8 * 262144 + v / 4096 % 64 * 4096 + v / 64 % 64 * 64
      + v % 64 = v := by
    omega
  rw [head_eq, if_neg (by omega), if_neg (by omega), if_neg (by omega), if_neg (by omega),
    if_neg (by omega)]
  by_cases h0 : v / 262144 = 0
  · rw [if_pos (by omega),
      headOfFour_of_le (by simp; omega) (by simp; omega) (isTail_ofNat _) (isTail_ofNat v)]
    simp only [ha, tailBits_ofNat, hr]
  · by_cases h4 : v / 262144 = 4
    · rw [if_neg (by omega), if_neg (by omega), if_pos (by omega),
        headOfFour_of_le (by simp; omega) (by simp; omega) (isTail_ofNat _) (isTail_ofNat v)]
      simp only [ha, tailBits_ofNat, hr]
    · rw [if_neg (by omega), if_pos (by omega),
        headOfFour_of_le (by simp; omega) (by simp; omega) (isTail_ofNat _) (isTail_ofNat v)]
      simp only [ha, tailBits_ofNat, hr]

/-! ### Texts -/

/-- **The bytes of a character are read as that character**, whatever follows them. -/
theorem head_encodeChar (c : Char) : ∃ a tail, encodeChar c = a :: tail ∧
    ∀ rest, head a (tail ++ rest) = .char c (tail.length + 1) := by
  have hv : c.toNat < 0xD800 ∨ 0xDFFF < c.toNat ∧ c.toNat < 0x110000 := c.valid
  have hc : Char.ofNat c.toNat = c := Char.ofNat_toNat c
  have hn : c.val.toNat = c.toNat := rfl
  unfold encodeChar
  fun_cases String.utf8EncodeChar c with
  | case1 v h =>
    have ha : (UInt8.ofNat v).toNat = v := toNat_ofNat_of_lt (by omega)
    refine ⟨_, _, rfl, fun rest => ?_⟩
    rw [head_eq, if_pos (by omega), ha]
    exact congrArg (Head.char · 1) hc
  | case2 v h1 h2 =>
    refine ⟨_, _, rfl, fun rest => (head_of_two (by omega) (by omega) rest).trans ?_⟩
    exact congrArg (Head.char · 2) hc
  | case3 v h1 h2 h3 =>
    refine ⟨_, _, rfl, fun rest => (head_of_three (by omega) (by omega) (by omega) rest).trans ?_⟩
    exact congrArg (Head.char · 3) hc
  | case4 v h1 h2 h3 =>
    refine ⟨_, _, rfl, fun rest => (head_of_four (by omega) (by omega) rest).trans ?_⟩
    exact congrArg (Head.char · 4) hc

theorem decodeWith_skip (onBroken : Option Char) (skipped rest : List UInt8) (read : Text) :
    decodeWith onBroken skipped.length (skipped ++ rest) read =
      decodeWith onBroken 0 rest read := by
  induction skipped with
  | nil => rfl
  | cons a skipped ih => exact ih

theorem decodeWith_encode (onBroken : Option Char) (t read : Text) :
    decodeWith onBroken 0 (encode t) read = some (read.reverse ++ t) := by
  induction t generalizing read with
  | nil => simp [decodeWith]
  | cons c t ih =>
    obtain ⟨a, tail, ha, hh⟩ := head_encodeChar c
    rw [encode_cons, ha, List.cons_append, decodeWith, hh]
    simp only [Nat.add_sub_cancel]
    rw [decodeWith_skip, ih]
    simp

/-- **The bytes of a text are well formed and stand for it.** -/
@[simp] theorem decode?_encode (t : Text) : decode? (encode t) = some t :=
  decodeWith_encode none t []

@[simp] theorem decodeLossy_encode (t : Text) : decodeLossy (encode t) = t := by
  simp [decodeLossy, decodeWith_encode]

theorem encode_injective {s t : Text} (h : encode s = encode t) : s = t := by
  have := congrArg decode? h
  simpa using this

end MetricsBridge.Utf8
