import MetricsBridge.Proofs.Text.Occurrence
import MetricsBridge.Text.Quoted

/-!
# Reading quoted texts

A character between quotes stands for itself, or a backslash says how it is written
(`Quoted.cases_encodeChar`).  So the characters of a quoted text can be told one by one from the
left (`encodeChar_append_inj`), and so can its end, because no character begins with a quote
(`encode_append_inj`).
-/
namespace MetricsBridge

/-! ### Hexadecimal numbers -/

section Hexadecimal

theorem ofNatHex_eq (n : Nat) : Text.ofNatHex n =
    if n < 16 then [hexDigit n] else Text.ofNatHex (n / 16) ++ [hexDigit (n % 16)] :=
  Nat.toDigits_eq_if (by decide)

theorem hexValue?_hexDigit : ∀ n < 16, hexValue? (hexDigit n) = some n := by
  decide

/-- **A number is what its hexadecimal digits write.** -/
theorem hexNumber?_ofNatHex (n : Nat) : hexNumber? (Text.ofNatHex n) = some n := by
  induction n using Nat.strongRecOn with
  | ind n ih =>
    rw [ofNatHex_eq]
    split
    · next hlt => simp [hexNumber?, hexValue?_hexDigit n hlt]
    · next hge =>
      have hfront := ih (n / 16) (by omega)
      have hlast := hexValue?_hexDigit (n % 16) (by omega)
      rw [hexNumber?] at hfront ⊢
      rw [List.foldlM_append, hfront]
      have hsum : 16 * (n / 16) + n % 16 = n := Nat.div_add_mod n 16
      simp [hlast, hsum]

/-- A hexadecimal number has digits only. -/
theorem exists_hexDigit_of_mem (n : Nat) :
    ∀ c ∈ Text.ofNatHex n, ∃ k < 16, c = hexDigit k := by
  induction n using Nat.strongRecOn with
  | ind n ih =>
    rw [ofNatHex_eq]
    split
    · next hlt =>
      intro c hc
      exact ⟨n, hlt, List.mem_singleton.mp hc⟩
    · next hge =>
      intro c hc
      rcases List.mem_append.mp hc with hc | hc
      · exact ih (n / 16) (by omega) c hc
      · exact ⟨n % 16, by omega, List.mem_singleton.mp hc⟩

theorem notMem_ofNatHex {c : Char} (h : ∀ k < 16, hexDigit k ≠ c) (n : Nat) :
    c ∉ Text.ofNatHex n := by
  intro hmem
  obtain ⟨k, hk, rfl⟩ := exists_hexDigit_of_mem n c hmem
  exact h k hk rfl

theorem ofNatHex_injective {n m : Nat} (h : Text.ofNatHex n = Text.ofNatHex m) : n = m := by
  have hn := hexNumber?_ofNatHex n
  rw [h, hexNumber?_ofNatHex m] at hn
  exact (Option.some.inj hn).symm

end Hexadecimal

namespace Quoted

variable {c d : Char} {s t r r' : Text}

/-- The characters that have a letter of their own behind the backslash. -/
def letters : List (Char × Char) :=
  [('"', '"'), ('\\', '\\'), ('\n', 'n'), ('\r', 'r'), ('\t', 't'), ('\x00', '0')]

/-- **How a character is written**: with its letter behind a backslash, by its number, or as it
is. -/
theorem cases_encodeChar (c : Char) :
    (∃ d, (c, d) ∈ letters ∧ encodeChar c = ['\\', d]) ∨
    encodeChar c = '\\' :: 'u' :: '\x7b' :: (Text.ofNatHex c.toNat ++ ['\x7d']) ∨
    (∀ e ∈ letters, c ≠ e.1) ∧ encodeChar c = [c] := by
  by_cases hletter : ∃ e ∈ letters, c = e.1
  · obtain ⟨⟨_, d⟩, hmem, rfl⟩ := hletter
    refine .inl ⟨d, hmem, ?_⟩
    simp only [letters, List.mem_cons, List.not_mem_nil, or_false, Prod.mk.injEq] at hmem
    rcases hmem with
      ⟨rfl, rfl⟩ | ⟨rfl, rfl⟩ | ⟨rfl, rfl⟩ | ⟨rfl, rfl⟩ | ⟨rfl, rfl⟩ | ⟨rfl, rfl⟩ <;> rfl
  · have hother : ∀ e ∈ letters, c ≠ e.1 := fun e he heq => hletter ⟨e, he, heq⟩
    have hne := hother
    simp only [letters, List.forall_mem_cons, List.not_mem_nil, false_imp_iff, implies_true,
      and_true] at hne
    obtain ⟨hquote, hslash, hfeed, hreturn, htab, hnul⟩ := hne
    unfold encodeChar
    rw [if_neg hquote, if_neg hslash, if_neg hfeed, if_neg hreturn, if_neg htab, if_neg hnul]
    split
    · exact .inr (.inl rfl)
    · exact .inr (.inr ⟨hother, rfl⟩)

theorem letters_inj : ∀ e ∈ letters, ∀ f ∈ letters, e.2 = f.2 → e = f := by
  decide

/-- **The first character can be told** from what is written of it, whatever follows. -/
theorem encodeChar_append_inj (h : encodeChar c ++ r = encodeChar d ++ r') : c = d ∧ r = r' := by
  have hnumber : ∀ e ∈ letters, e.2 ≠ 'u' := by decide
  have hslash : ∀ {x : Char}, (∀ e ∈ letters, x ≠ e.1) → x ≠ '\\' :=
    fun hx => hx ('\\', '\\') (by decide)
  have hend := notMem_ofNatHex (c := '\x7d') (by decide)
  rcases cases_encodeChar c with ⟨a, ha, hc⟩ | hc | ⟨ha, hc⟩ <;>
    rcases cases_encodeChar d with ⟨b, hb, hd⟩ | hd | ⟨hb, hd⟩ <;>
    simp only [hc, hd, List.cons_append, List.nil_append, List.append_assoc, List.cons.injEq,
      true_and] at h
  · obtain ⟨rfl, hrest⟩ := h
    have hsame := letters_inj _ ha _ hb rfl
    exact ⟨congrArg Prod.fst hsame, hrest⟩
  · exact absurd h.1 (hnumber _ ha)
  · exact absurd h.1.symm (hslash hb)
  · exact absurd h.1.symm (hnumber _ hb)
  · obtain ⟨hdigits, hrest⟩ := (Text.append_cons_inj (hend _) (hend _)).mp h
    exact ⟨Char.toNat_inj.mp (ofNatHex_injective hdigits), hrest⟩
  · exact absurd h.1.symm (hslash hb)
  · exact absurd h.1 (hslash ha)
  · exact absurd h.1 (hslash ha)
  · exact h

/-- No character is written with a quote in front. -/
theorem encodeChar_append_ne (c : Char) (r r' : Text) : encodeChar c ++ r ≠ '"' :: r' := by
  intro h
  rcases cases_encodeChar c with ⟨a, -, hc⟩ | hc | ⟨ha, hc⟩
  · simp [hc] at h
  · simp [hc] at h
  · rw [hc] at h
    exact ha ('"', '"') (by decide) (List.cons.inj h).1

/-- **A quoted text can be told**, whatever follows it. -/
theorem encode_append_inj (h : encode s ++ r = encode t ++ r') : s = t ∧ r = r' := by
  have hbody : s.flatMap encodeChar ++ '"' :: r = t.flatMap encodeChar ++ '"' :: r' := by
    simpa [encode] using h
  clear h
  induction s generalizing t with
  | nil =>
    cases t with
    | nil => exact ⟨rfl, (List.cons.inj hbody).2⟩
    | cons d t =>
      rw [List.flatMap_cons, List.append_assoc] at hbody
      exact absurd hbody.symm (encodeChar_append_ne d _ _)
  | cons c s ih =>
    rw [List.flatMap_cons, List.append_assoc] at hbody
    cases t with
    | nil => exact absurd hbody (encodeChar_append_ne c _ _)
    | cons d t =>
      rw [List.flatMap_cons, List.append_assoc] at hbody
      obtain ⟨rfl, hrest⟩ := encodeChar_append_inj hbody
      obtain ⟨rfl, hbehind⟩ := ih hrest
      exact ⟨rfl, hbehind⟩

/-- **A quoted text stays on its line.** -/
theorem notMem_encode (t : Text) : '\n' ∉ encode t := by
  have hchar : ∀ c, '\n' ∉ encodeChar c := by
    intro c hmem
    rcases cases_encodeChar c with ⟨a, ha, hc⟩ | hc | ⟨ha, hc⟩
    · have hne : ∀ e ∈ letters, e.2 ≠ '\n' := by decide
      rw [hc] at hmem
      simp [(hne _ ha).symm] at hmem
    · rw [hc] at hmem
      simp [notMem_ofNatHex (c := '\n') (by decide)] at hmem
    · rw [hc, List.mem_singleton] at hmem
      exact ha ('\n', 'n') (by decide) hmem.symm
  simp [encode, hchar]

end Quoted

end MetricsBridge
