import MetricsBridge.Proofs.Text.Split
import MetricsBridge.Proofs.Text.Utf8
import MetricsBridge.Text.Form

/-!
# Reading back encoded text

Percent encoding and form encoding lose nothing.  What is encoded with a set of kept characters that
leaves out `%` reads back as the bytes of the text (`Percent.decodeBytes_encode`), and the pairs of
a form read back as they were, behind any query that stood there before (`Form.parse_serialize`,
`Form.parse_append_serialize`).
-/
namespace MetricsBridge

/-! ### Percent encoding -/

namespace Percent

variable {keeps : Char → Bool}

theorem hexValue?_hexDigitUpper {n : Nat} (h : n < 16) : hexValue? (hexDigitUpper n) = some n := by
  have hall : ∀ i : Fin 16, hexValue? (hexDigitUpper i) = some i.val := by decide
  exact hall ⟨n, h⟩

theorem isAlphanum_hexDigitUpper {n : Nat} (h : n < 16) : (hexDigitUpper n).isAlphanum = true := by
  have hall : ∀ i : Fin 16, (hexDigitUpper i).isAlphanum = true := by decide
  exact hall ⟨n, h⟩

@[simp] theorem encode_nil : encode keeps [] = [] := rfl

@[simp] theorem encode_cons (c : Char) (t : Text) :
    encode keeps (c :: t) = encodeChar keeps c ++ encode keeps t := by
  simp [encode]

theorem mem_encodeByte {b : UInt8} {x : Char} (h : x ∈ encodeByte b) :
    x = '%' ∨ x.isAlphanum = true := by
  have hb : b.toNat < 256 := b.toNat_lt
  simp only [encodeByte, List.mem_cons, List.not_mem_nil, or_false] at h
  rcases h with rfl | rfl | rfl
  · exact Or.inl rfl
  · exact Or.inr (isAlphanum_hexDigitUpper (by omega))
  · exact Or.inr (isAlphanum_hexDigitUpper (by omega))

/-- A character of an encoded text is one of the text that is kept, or belongs to an escape. -/
theorem mem_encode {t : Text} {x : Char} (h : x ∈ encode keeps t) :
    (x ∈ t ∧ keeps x = true) ∨ x = '%' ∨ x.isAlphanum = true := by
  obtain ⟨c, hc, hx⟩ := List.mem_flatMap.mp h
  unfold encodeChar at hx
  split_ifs at hx with hk
  · rw [List.mem_singleton] at hx
    subst hx
    exact Or.inl ⟨hc, hk⟩
  · obtain ⟨b, -, hb⟩ := List.mem_flatMap.mp hx
    exact Or.inr (mem_encodeByte hb)

theorem decodeBytes_eq_nil {t : Text} : decodeBytes t = [] ↔ t = [] := by
  have hne : ∀ c, Utf8.encodeChar c ≠ [] := fun c => String.utf8EncodeChar_ne_nil
  fun_cases decodeBytes t <;> simp [hne]

theorem decodeBytes_cons_of_ne {c : Char} (h : c ≠ '%') (t : Text) :
    decodeBytes (c :: t) = Utf8.encodeChar c ++ decodeBytes t := by
  rw [decodeBytes]
  rintro _ _ _ rfl
  exact absurd rfl h

/-- An escape reads back as its byte. -/
theorem decodeBytes_encodeByte (b : UInt8) (t : Text) :
    decodeBytes (encodeByte b ++ t) = b :: decodeBytes t := by
  have hb : b.toNat < 256 := b.toNat_lt
  simp only [encodeByte, List.cons_append, List.nil_append]
  rw [decodeBytes, hexValue?_hexDigitUpper (by omega), hexValue?_hexDigitUpper (by omega)]
  simp only
  rw [show 16 * (b.toNat / 16) + b.toNat % 16 = b.toNat by omega, UInt8.ofNat_toNat]

theorem decodeBytes_flatMap_encodeByte (bs : List UInt8) (t : Text) :
    decodeBytes (bs.flatMap encodeByte ++ t) = bs ++ decodeBytes t := by
  induction bs with
  | nil => rfl
  | cons b bs ih =>
    rw [List.flatMap_cons, List.append_assoc, decodeBytes_encodeByte, ih, List.cons_append]

theorem decodeBytes_encodeChar_append (hk : keeps '%' = false) (c : Char) (t : Text) :
    decodeBytes (encodeChar keeps c ++ t) = Utf8.encodeChar c ++ decodeBytes t := by
  unfold encodeChar
  split_ifs with hc
  · have hne : c ≠ '%' := by
      rintro rfl
      rw [hk] at hc
      exact absurd hc (by decide)
    exact decodeBytes_cons_of_ne hne t
  · exact decodeBytes_flatMap_encodeByte _ t

/-- **An encoded text reads back as its bytes**, if `%` itself is always escaped. -/
theorem decodeBytes_encode (hk : keeps '%' = false) (t : Text) :
    decodeBytes (encode keeps t) = Utf8.encode t := by
  induction t with
  | nil => rfl
  | cons c t ih =>
    rw [encode_cons, decodeBytes_encodeChar_append hk, ih, Utf8.encode_cons]

theorem encode_injective (hk : keeps '%' = false) {s t : Text}
    (h : encode keeps s = encode keeps t) : s = t := by
  have hb := congrArg decodeBytes h
  rw [decodeBytes_encode hk, decodeBytes_encode hk] at hb
  exact Utf8.encode_injective hb

end Percent

/-! ### Form encoding -/

namespace Form

/-- Only plain characters, escapes and plus signs stand in an encoded text. -/
theorem mem_encode {t : Text} {x : Char} (h : x ∈ encode t) :
    x = '+' ∨ x = '%' ∨ isPlain x = true := by
  obtain ⟨c, -, hx⟩ := List.mem_flatMap.mp h
  unfold encodeChar at hx
  split_ifs at hx with hc
  · exact Or.inl (List.mem_singleton.mp hx)
  · have hx' : x ∈ Percent.encode isPlain [c] := by simpa using hx
    rcases Percent.mem_encode hx' with h | h | h
    · exact Or.inr (Or.inr h.2)
    · exact Or.inr (Or.inl h)
    · exact Or.inr (Or.inr (by simp [isPlain, h]))

theorem ampersand_not_mem_encode (t : Text) : '&' ∉ encode t := fun h => by
  rcases mem_encode h with h | h | h <;> revert h <;> decide

theorem equals_not_mem_encode (t : Text) : '=' ∉ encode t := fun h => by
  rcases mem_encode h with h | h | h <;> revert h <;> decide

/-- With its plus signs read as spaces, a form encoding is a percent encoding that keeps spaces. -/
theorem map_encodeChar (c : Char) : (encodeChar c).map (fun c => if c = '+' then ' ' else c) =
    Percent.encodeChar (fun c => c == ' ' || isPlain c) c := by
  by_cases hs : c = ' '
  · subst hs
    rfl
  · have hp : ∀ x ∈ Percent.encodeChar isPlain c, x ≠ '+' := by
      rintro x hx rfl
      have hx' : '+' ∈ Percent.encode isPlain [c] := by simpa using hx
      rcases Percent.mem_encode hx' with h | h | h <;> revert h <;> simp [isPlain]
    rw [encodeChar, if_neg hs, List.map_congr_left (fun x hx => if_neg (hp x hx)), List.map_id']
    simp [Percent.encodeChar, hs]

theorem map_encode (t : Text) : (encode t).map (fun c => if c = '+' then ' ' else c) =
    Percent.encode (fun c => c == ' ' || isPlain c) t := by
  simp only [encode, Percent.encode, List.map_flatMap, map_encodeChar]

/-- **A name or a value reads back as it was.** -/
@[simp] theorem decode_encode (t : Text) : decode (encode t) = t := by
  rw [decode, map_encode, Percent.decodeBytes_encode (by decide), Utf8.decodeLossy_encode]

@[simp] theorem decodePair_encodePair (p : Pair) : decodePair (encodePair p) = p := by
  rw [decodePair, encodePair, Text.cutAt_append_cons (equals_not_mem_encode p.1)]
  simp

theorem ampersand_not_mem_encodePair (p : Pair) : '&' ∉ encodePair p := by
  simp [encodePair, ampersand_not_mem_encode]

theorem encodePair_ne_nil (p : Pair) : encodePair p ≠ [] := by
  simp [encodePair]

/-- Two queries with an ampersand between them have the pairs of both. -/
theorem parse_append_cons (s t : Text) : parse (s ++ '&' :: t) = parse s ++ parse t := by
  simp [parse, Text.splitOn_append_cons]

/-- **The pairs of a form read back as they were**, in order and with nothing merged. -/
@[simp] theorem parse_serialize (pairs : List Pair) : parse (serialize pairs) = pairs := by
  by_cases hp : pairs = []
  · subst hp
    rfl
  · have hsplit : Text.splitOn '&' (serialize pairs) = pairs.map encodePair := by
      refine Text.splitOn_joinWith (by simpa using hp) fun t ht => ?_
      obtain ⟨p, -, rfl⟩ := List.mem_map.mp ht
      exact ampersand_not_mem_encodePair p
    have hfilter : (pairs.map encodePair).filter (· != []) = pairs.map encodePair := by
      refine List.filter_eq_self.mpr fun t ht => ?_
      obtain ⟨p, -, rfl⟩ := List.mem_map.mp ht
      simpa using encodePair_ne_nil p
    rw [parse, hsplit, hfilter, List.map_map]
    exact (List.map_congr_left fun p _ => decodePair_encodePair p).trans (List.map_id' _)

theorem parse_append_serialize (query : Text) (pairs : List Pair) :
    parse (query ++ '&' :: serialize pairs) = parse query ++ pairs := by
  rw [parse_append_cons, parse_serialize]

end Form

end MetricsBridge
