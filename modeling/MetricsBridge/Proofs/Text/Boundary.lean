import MetricsBridge.Proofs.Text.Trim
import MetricsBridge.Proofs.Text.Utf8

/-!
# Where characters end

A place among the bytes of a text is a boundary if no character goes across it.  The boundaries are
the places behind the starts of the text (`isBoundary_encode_iff`).  So a search that goes back from
a limit byte by byte always stops, at most three bytes in front of it, and what it leaves is the
longest start that fits (`lastBoundary?_encode`).
-/
namespace MetricsBridge

namespace Text

/-- The longest start of a text that is made of whole characters and has at most `limit` bytes. -/
structure IsLongestStart (limit : Nat) (t start : Text) : Prop where
  isStart : start <+: t
  fits : byteLength start ≤ limit
  longest : ∀ s, s <+: t → byteLength s ≤ limit → s <+: start

end Text

namespace Utf8

/-- No character goes across the place: it is the start or the end of the bytes, or the byte there
does not continue a sequence. -/
def isBoundary (bytes : List UInt8) (place : Nat) : Bool :=
  place == 0 || match bytes[place]? with
    | some b => !isTail b
    | none => place == bytes.length

/-- The last boundary that is not behind a place, found by going back byte by byte.  There is no
place to go back to from the start. -/
def lastBoundary? (bytes : List UInt8) : Nat → Option Nat
  | 0 => if isBoundary bytes 0 then some 0 else none
  | place + 1 =>
    if isBoundary bytes (place + 1) then some (place + 1) else lastBoundary? bytes place

end Utf8

/-! ### The longest start -/

namespace Text

variable {limit : Nat} {s t : Text}

/-- **What is taken is the longest start that fits.** -/
theorem isLongestStart_takeBytes (limit : Nat) (t : Text) :
    IsLongestStart limit t (takeBytes limit t) where
  isStart := takeBytes_prefix limit t
  fits := byteLength_takeBytes_le limit t
  longest := by
    intro s hs hfits
    induction t generalizing limit s with
    | nil =>
      rw [List.prefix_nil.mp hs]
      exact List.nil_prefix
    | cons c t ih =>
      rcases List.prefix_cons_iff.mp hs with rfl | ⟨s', rfl, hs'⟩
      · exact List.nil_prefix
      · rw [byteLength_cons] at hfits
        rw [takeBytes, if_pos (by omega)]
        exact (List.prefix_cons_inj c).mpr (ih (limit - c.utf8Size) s' hs' (by omega))

/-- There is one longest start. -/
theorem IsLongestStart.eq_takeBytes {start : Text} (h : IsLongestStart limit t start) :
    start = takeBytes limit t := by
  have htake := isLongestStart_takeBytes limit t
  exact (htake.longest _ h.isStart h.fits).eq_of_length_le
    (h.longest _ htake.isStart htake.fits).length_le

/-- A cut loses at most three bytes of the room, since a character has at most four. -/
theorem lt_byteLength_takeBytes (h : limit ≤ byteLength t) :
    limit < byteLength (takeBytes limit t) + 4 := by
  induction t generalizing limit with
  | nil =>
    have hzero : limit ≤ 0 := h
    omega
  | cons c t ih =>
    rw [byteLength_cons] at h
    unfold takeBytes
    split
    · next hroom =>
      rw [byteLength_cons]
      have hless : limit - c.utf8Size ≤ byteLength t := by omega
      have hrest := ih hless
      omega
    · have hfour := Char.utf8Size_le_four c
      omega

end Text

/-! ### Boundaries -/

namespace Utf8

open Text

variable {c : Char} {t : Text} {limit place : Nat} {bytes : List UInt8}

theorem encode_append (s t : Text) : encode (s ++ t) = encode s ++ encode t :=
  List.flatMap_append

theorem length_encodeChar (c : Char) : (encodeChar c).length = c.utf8Size :=
  String.length_utf8EncodeChar c

theorem length_encode (t : Text) : (encode t).length = byteLength t := by
  induction t with
  | nil => rfl
  | cons c t ih => rw [encode_cons, List.length_append, length_encodeChar, ih, byteLength_cons]

theorem isTail_eq_false_of_lt {n : Nat} (hlt : n < 128 ∨ 192 ≤ n) (hbyte : n < 256) :
    isTail (UInt8.ofNat n) = false := by
  have hn := toNat_ofNat_of_lt hbyte
  simp only [isTail, UInt8.le_iff_toNat_le, hn, Bool.and_eq_false_iff, decide_eq_false_iff_not]
  show ¬ 128 ≤ n ∨ ¬ n ≤ 191
  omega

/-- The first byte of a character does not continue a sequence, and all others do. -/
theorem encodeChar_eq_cons (c : Char) : ∃ a tail, encodeChar c = a :: tail ∧ isTail a = false ∧
    ∀ b ∈ tail, isTail b = true := by
  have hv : c.toNat < 0x110000 := by
    have hvalid : c.toNat < 0xD800 ∨ 0xDFFF < c.toNat ∧ c.toNat < 0x110000 := c.valid
    omega
  have hn : c.val.toNat = c.toNat := rfl
  unfold encodeChar
  fun_cases String.utf8EncodeChar c with
  | case1 v h => exact ⟨_, _, rfl, isTail_eq_false_of_lt (by omega) (by omega), by simp⟩
  | case2 v h1 h2 =>
    refine ⟨_, _, rfl, isTail_eq_false_of_lt (by omega) (by omega), ?_⟩
    simp only [List.forall_mem_cons, isTail_ofNat, List.not_mem_nil, false_imp_iff, implies_true,
      and_self]
  | case3 v h1 h2 h3 =>
    refine ⟨_, _, rfl, isTail_eq_false_of_lt (by omega) (by omega), ?_⟩
    simp only [List.forall_mem_cons, isTail_ofNat, List.not_mem_nil, false_imp_iff, implies_true,
      and_self]
  | case4 v h1 h2 h3 =>
    refine ⟨_, _, rfl, isTail_eq_false_of_lt (by omega) (by omega), ?_⟩
    simp only [List.forall_mem_cons, isTail_ofNat, List.not_mem_nil, false_imp_iff, implies_true,
      and_self]

theorem isBoundary_of_getElem? {b : UInt8} (hpos : 0 < place) (h : bytes[place]? = some b) :
    isBoundary bytes place = !isTail b := by
  rw [isBoundary, h, beq_false_of_ne hpos.ne', Bool.false_or]

/-- Within a character there is no boundary. -/
theorem isBoundary_inside (hpos : 0 < place) (hlt : place < c.utf8Size) (t : Text) :
    isBoundary (encode (c :: t)) place = false := by
  obtain ⟨a, tail, hchar, -, htail⟩ := encodeChar_eq_cons c
  have hlength : tail.length + 1 = c.utf8Size := by
    rw [← length_encodeChar, hchar, List.length_cons]
  obtain ⟨k, rfl⟩ : ∃ k, place = k + 1 := ⟨place - 1, by omega⟩
  have hk : k < tail.length := by omega
  have hbyte : (encode (c :: t))[k + 1]? = some tail[k] := by
    rw [encode_cons, hchar, List.cons_append, List.getElem?_cons_succ,
      List.getElem?_append_left hk, List.getElem?_eq_getElem hk]
  rw [isBoundary_of_getElem? hpos hbyte, htail _ (List.getElem_mem hk), Bool.not_true]

/-- Behind a character the boundaries are those of the rest. -/
theorem isBoundary_behind (c : Char) (t : Text) (place : Nat) :
    isBoundary (encode (c :: t)) (c.utf8Size + place) = isBoundary (encode t) place := by
  have hbyte : (encode (c :: t))[c.utf8Size + place]? = (encode t)[place]? := by
    rw [encode_cons, List.getElem?_append_right (by rw [length_encodeChar]; omega),
      length_encodeChar, Nat.add_sub_cancel_left]
  have hlength : (encode (c :: t)).length = c.utf8Size + (encode t).length := by
    rw [encode_cons, List.length_append, length_encodeChar]
  have hpos := Char.utf8Size_pos c
  rw [isBoundary, isBoundary, hbyte, hlength]
  cases place with
  | zero =>
    -- The rest starts with a character, or is nothing.
    cases t with
    | nil => simp
    | cons d t =>
      obtain ⟨a, tail, hchar, ha, -⟩ := encodeChar_eq_cons d
      simp [hchar, ha]
  | succ place =>
    have hne : (c.utf8Size + (place + 1) == 0) = false := beq_false_of_ne (by omega)
    have hend : (c.utf8Size + (place + 1) == c.utf8Size + (encode t).length) =
        (place + 1 == (encode t).length) := by
      rw [Bool.eq_iff_iff, beq_iff_eq, beq_iff_eq]
      omega
    rw [hne, hend]
    rfl

/-- **The boundaries of a text** are the places behind its starts. -/
theorem isBoundary_encode_iff :
    isBoundary (encode t) place = true ↔ ∃ s, s <+: t ∧ byteLength s = place := by
  induction t generalizing place with
  | nil =>
    constructor
    · intro h
      have hzero : place = 0 := by simpa [isBoundary] using h
      exact ⟨[], List.prefix_rfl, hzero.symm⟩
    · rintro ⟨s, hs, rfl⟩
      rw [List.prefix_nil.mp hs]
      rfl
  | cons c t ih =>
    by_cases hzero : place = 0
    · subst hzero
      exact iff_of_true rfl ⟨[], List.nil_prefix, rfl⟩
    by_cases hlt : place < c.utf8Size
    · rw [isBoundary_inside (Nat.pos_of_ne_zero hzero) hlt]
      apply iff_of_false Bool.false_ne_true
      rintro ⟨s, hs, rfl⟩
      rcases List.prefix_cons_iff.mp hs with rfl | ⟨s, rfl, -⟩
      · exact hzero rfl
      · rw [byteLength_cons] at hlt
        omega
    · obtain ⟨k, rfl⟩ := Nat.exists_eq_add_of_le (Nat.le_of_not_lt hlt)
      rw [isBoundary_behind, ih]
      constructor
      · rintro ⟨s, hs, rfl⟩
        exact ⟨c :: s, (List.prefix_cons_inj c).mpr hs, byteLength_cons c s⟩
      · rintro ⟨s, hs, hlength⟩
        rcases List.prefix_cons_iff.mp hs with rfl | ⟨s, rfl, -⟩
        · exact absurd hlength.symm hzero
        · rw [byteLength_cons] at hlength
          exact ⟨s, (List.prefix_cons_inj c).mp hs, by omega⟩

/-! ### The search -/

/-- The search stops at the first boundary that it comes to. -/
theorem lastBoundary?_eq_some (hplace : isBoundary bytes place = true) (hle : place ≤ limit)
    (hlast : ∀ q, place < q → q ≤ limit → isBoundary bytes q = false) :
    lastBoundary? bytes limit = some place := by
  induction limit with
  | zero =>
    obtain rfl : place = 0 := by omega
    rw [lastBoundary?, if_pos hplace]
  | succ limit ih =>
    rw [lastBoundary?]
    by_cases heq : place = limit + 1
    · rw [← heq, if_pos hplace]
    · have hnone := hlast (limit + 1) (by omega) (by omega)
      rw [hnone, if_neg Bool.false_ne_true]
      exact ih (by omega) fun q hq hqle => hlast q hq (by omega)

/-- **The search for a boundary always stops**, behind the longest start that fits. -/
theorem lastBoundary?_encode (limit : Nat) (t : Text) :
    lastBoundary? (encode t) limit = some (byteLength (takeBytes limit t)) := by
  have hstart := isLongestStart_takeBytes limit t
  apply lastBoundary?_eq_some
  · exact isBoundary_encode_iff.mpr ⟨_, hstart.isStart, rfl⟩
  · exact hstart.fits
  · intro q hq hle
    rw [← Bool.not_eq_true, isBoundary_encode_iff]
    rintro ⟨s, hs, rfl⟩
    have hlonger := byteLength_le_of_prefix (hstart.longest s hs hle)
    omega

/-- The bytes in front of the place where the search stops are those of the start. -/
theorem take_encode {s : Text} (h : s <+: t) : (encode t).take (byteLength s) = encode s := by
  obtain ⟨rest, rfl⟩ := h
  rw [encode_append, ← length_encode, List.take_left]

end Utf8

end MetricsBridge
