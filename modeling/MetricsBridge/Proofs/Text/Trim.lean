import Mathlib.Data.List.Infix
import MetricsBridge.Proofs.Text.Split
import MetricsBridge.Text.Blank
import MetricsBridge.Text.Cut

/-!
# Trimming and cutting

Trimming does not go beyond a character that is not blank, and what is left is part of the text.
Nothing blank stands at its ends (`isTrimmed_trim`), so trimming it once more leaves it alone.  A
cut leaves a start of the text, of as many bytes as there is room for (`byteLength_takeBytes_le`).
-/
namespace MetricsBridge.Text

variable {a b : Text} {c : Char}

theorem dropWhile_append_cons {p : Char → Bool} (hc : p c = false) (a b : Text) :
    (a ++ c :: b).dropWhile p = a.dropWhile p ++ c :: b := by
  induction a with
  | nil => simp [hc]
  | cons d a ih =>
    by_cases hd : p d = true
    · simp [hd, ih]
    · simp [hd]

theorem trimStart_append_cons (hc : isBlank c = false) :
    trimStart (a ++ c :: b) = trimStart a ++ c :: b :=
  dropWhile_append_cons hc a b

theorem trimEnd_append_cons (hc : isBlank c = false) :
    trimEnd (a ++ c :: b) = a ++ c :: trimEnd b := by
  unfold trimEnd
  have hreverse : (a ++ c :: b).reverse = b.reverse ++ c :: a.reverse := by simp
  rw [hreverse, dropWhile_append_cons hc]
  simp

theorem trimStart_suffix (t : Text) : trimStart t <:+ t :=
  List.dropWhile_suffix isBlank

theorem trimEnd_prefix (t : Text) : trimEnd t <+: t := by
  have h : t.reverse.dropWhile isBlank <:+ t.reverse := List.dropWhile_suffix isBlank
  simpa [trimEnd] using List.reverse_prefix.mpr h

/-! ### Trimmed texts -/

/-- Nothing blank stands at either end of the text. -/
structure IsTrimmed (t : Text) : Prop where
  start : ∀ c ∈ t.head?, isBlank c = false
  stop : ∀ c ∈ t.getLast?, isBlank c = false

theorem head?_dropWhile {p : Char → Bool} (t : Text) :
    ∀ c ∈ (t.dropWhile p).head?, p c = false := by
  have h := List.head?_dropWhile_not p t
  intro c hc
  rw [hc] at h
  exact h

theorem dropWhile_of_head? {p : Char → Bool} {t : Text} (h : ∀ c ∈ t.head?, p c = false) :
    t.dropWhile p = t := by
  cases t with
  | nil => rfl
  | cons c t => rw [List.dropWhile_cons_of_neg (by simp [h c rfl])]

/-- **What is left of a text has nothing blank at its ends.** -/
theorem isTrimmed_trim (t : Text) : IsTrimmed (trim t) where
  start := by
    have hstart : ∀ c ∈ (trimStart t).head?, isBlank c = false := head?_dropWhile t
    obtain ⟨rest, hrest⟩ := trimEnd_prefix (trimStart t)
    intro c hc
    apply hstart
    obtain ⟨more, hmore⟩ := List.head?_eq_some_iff.mp hc
    rw [← hrest, ← trim, hmore]
    rfl
  stop := by
    intro c hc
    rw [trim, trimEnd, List.getLast?_reverse] at hc
    exact head?_dropWhile _ c hc

/-- **Trimming leaves a trimmed text alone.** -/
theorem IsTrimmed.trim_eq {t : Text} (h : IsTrimmed t) : trim t = t := by
  have hstart : trimStart t = t := dropWhile_of_head? h.start
  have hreverse : ∀ c ∈ t.reverse.head?, isBlank c = false := by
    rw [List.head?_reverse]
    exact h.stop
  rw [trim, hstart, trimEnd, dropWhile_of_head? hreverse, List.reverse_reverse]

/-- Trimming takes nothing but blanks away, at the two ends. -/
theorem exists_trim_eq (t : Text) : ∃ front back, t = front ++ trim t ++ back ∧
    (∀ c ∈ front, isBlank c = true) ∧ ∀ c ∈ back, isBlank c = true := by
  refine ⟨t.takeWhile isBlank, ((trimStart t).reverse.takeWhile isBlank).reverse, ?_, ?_, ?_⟩
  · have hend : trimStart t = trim t ++ ((trimStart t).reverse.takeWhile isBlank).reverse := by
      rw [trim, trimEnd, ← List.reverse_append, List.takeWhile_append_dropWhile,
        List.reverse_reverse]
    rw [List.append_assoc, ← hend]
    exact List.takeWhile_append_dropWhile.symm
  · exact fun c hc => List.mem_takeWhile_imp hc
  · exact fun c hc => List.mem_takeWhile_imp (List.mem_reverse.mp hc)

theorem isTrimmed_of_forall {t : Text} (h : ∀ c ∈ t, isBlank c = false) : IsTrimmed t where
  start := fun c hc => h c (List.mem_of_mem_head? hc)
  stop := fun c hc => h c (List.mem_of_mem_getLast? hc)

/-! ### Cuts -/

theorem takeBytes_prefix (limit : Nat) (t : Text) : takeBytes limit t <+: t := by
  induction t generalizing limit with
  | nil => exact List.prefix_rfl
  | cons c t ih =>
    unfold takeBytes
    split
    · exact (List.prefix_cons_inj c).mpr (ih _)
    · exact List.nil_prefix

theorem beforeLast_append_cons {sep : Char} (h : sep ∉ b) (a : Text) :
    beforeLast sep (a ++ sep :: b) = some a := by
  have hreverse : (a ++ sep :: b).reverse = b.reverse ++ sep :: a.reverse := by simp
  rw [beforeLast, cutAtLast, hreverse, cutAt_append_cons (by simpa using h)]
  simp

theorem beforeLast_of_not_mem {sep : Char} {t : Text} (h : sep ∉ t) : beforeLast sep t = none := by
  rw [beforeLast, cutAtLast_of_not_mem h, Option.map_none]

/-! ### Bytes -/

@[simp] theorem byteLength_cons (c : Char) (t : Text) :
    byteLength (c :: t) = c.utf8Size + byteLength t := rfl

theorem byteLength_append (s t : Text) : byteLength (s ++ t) = byteLength s + byteLength t := by
  induction s with
  | nil => exact (Nat.zero_add _).symm
  | cons c s ih => rw [List.cons_append, byteLength_cons, byteLength_cons, ih, Nat.add_assoc]

theorem byteLength_replicate (n : Nat) (c : Char) :
    byteLength (List.replicate n c) = n * c.utf8Size := by
  induction n with
  | zero => simp [byteLength]
  | succ n ih =>
    rw [List.replicate_succ, byteLength_cons, ih, Nat.succ_mul]
    exact Nat.add_comm _ _

theorem byteLength_le_of_prefix {s t : Text} (h : s <+: t) : byteLength s ≤ byteLength t := by
  obtain ⟨rest, rfl⟩ := h
  rw [byteLength_append]
  exact Nat.le_add_right _ _

theorem byteLength_eq_zero {t : Text} : byteLength t = 0 ↔ t = [] := by
  cases t with
  | nil => simp [byteLength]
  | cons c t =>
    have hpos := Char.utf8Size_pos c
    rw [byteLength_cons]
    simp only [List.cons_ne_nil, iff_false]
    omega

/-- **A cut has no more bytes than there is room for.** -/
theorem byteLength_takeBytes_le (limit : Nat) (t : Text) :
    byteLength (takeBytes limit t) ≤ limit := by
  induction t generalizing limit with
  | nil => exact Nat.zero_le limit
  | cons c t ih =>
    unfold takeBytes
    split
    · next hroom =>
      rw [byteLength_cons]
      have hrest := ih (limit - c.utf8Size)
      omega
    · exact Nat.zero_le limit

end MetricsBridge.Text
