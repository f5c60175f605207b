import Mathlib.Data.List.Infix
import MetricsBridge.Text.Basic

/-!
# Where a text occurs

A text that does without a mark occurs in front of the mark or behind it, never across it, and one
that ends in a mark ends where the mark stands.  So the place of a mark says where a text may be.
-/
namespace MetricsBridge.Text

variable {c : Char} {w a a' b b' : Text}

/-- The first place of a mark is one place. -/
theorem append_cons_inj (ha : c ∉ a) (ha' : c ∉ a') :
    a ++ c :: b = a' ++ c :: b' ↔ a = a' ∧ b = b' := by
  induction a generalizing a' with
  | nil =>
    cases a' with
    | nil => simp
    | cons d a' =>
      have hd : c ≠ d := fun h => ha' (by simp [h])
      simp [hd]
  | cons d a ih =>
    have hd : d ≠ c := fun h => ha (by simp [h])
    cases a' with
    | nil => simp [hd]
    | cons d' a' =>
      rw [List.mem_cons, not_or] at ha ha'
      simp [ih ha.2 ha'.2, and_assoc]

/-- The last place of a mark is one place. -/
theorem append_cons_inj_right (hb : c ∉ b) (hb' : c ∉ b') :
    a ++ c :: b = a' ++ c :: b' ↔ a = a' ∧ b = b' := by
  have h : b.reverse ++ c :: a.reverse = b'.reverse ++ c :: a'.reverse ↔
      b.reverse = b'.reverse ∧ a.reverse = a'.reverse :=
    append_cons_inj (by simpa using hb) (by simpa using hb')
  rw [← List.reverse_inj]
  simpa [and_comm] using h

theorem exists_last_of_mem (h : c ∈ w) : ∃ a b, w = a ++ c :: b ∧ c ∉ b := by
  obtain ⟨a, b, hw, ha⟩ := List.eq_append_cons_of_mem (List.mem_reverse.mpr h)
  exact ⟨b.reverse, a.reverse, List.reverse_injective (by simp [hw]), by simpa using ha⟩

/-- **A text without a mark does not occur across it.** -/
theorem infix_append_cons (hc : c ∉ w) (h : w <:+: a ++ c :: b) : w <:+: a ∨ w <:+: b := by
  have hstart : ∀ v, v <:+: w → v <+: c :: b → v = [] := by
    intro v hv hvb
    cases v with
    | nil => rfl
    | cons d v =>
      have hd : d = c := (List.cons_prefix_cons.mp hvb).1
      exact absurd (hv.mem (by simp [hd])) hc
  rcases List.infix_append_iff_ne_nil.mp h with h | h | ⟨x, y, -, hy, rfl, -, hyb⟩
  · exact .inl h
  · rcases List.infix_cons_iff.mp h with h | h
    · exact .inl (hstart w List.infix_rfl h ▸ List.nil_infix)
    · exact .inr h
  · exact absurd (hstart y List.infix_append_right hyb) hy

/-- An occurrence begins behind a place, or at a character in front of it. -/
theorem infix_append_start (h : w <:+: a ++ b) :
    w <:+: b ∨ ∃ x, x ≠ [] ∧ x <:+ a ∧ w <+: x ++ b := by
  obtain ⟨s, t, hst⟩ := h
  rw [List.append_assoc] at hst
  rcases List.append_eq_append_iff.mp hst with ⟨x, rfl, hx⟩ | ⟨x, -, rfl⟩
  · by_cases hnil : x = []
    · exact .inl ⟨[], t, by simpa [hnil] using hx⟩
    · exact .inr ⟨x, hnil, List.suffix_append s x, t, hx⟩
  · exact .inl ⟨x, t, by simp⟩

/-- A start without a mark ends in front of the first place of the mark. -/
theorem prefix_append_cons (hc : c ∉ w) (h : w <+: a ++ c :: b) : w <+: a := by
  rcases List.prefix_or_prefix_of_prefix h (List.prefix_append a (c :: b)) with h' | ⟨x, rfl⟩
  · exact h'
  · cases x with
    | nil => simp
    | cons d x =>
      have hd : d = c := (List.cons_prefix_cons.mp ((List.prefix_append_right_inj a).mp h)).1
      exact absurd (by simp [hd]) hc

/-- A text whose last character does not occur behind a place ends in front of it. -/
theorem infix_append_of_last (hc : c ∉ b) (h : w ++ [c] <:+: a ++ b) : w ++ [c] <:+: a := by
  obtain ⟨s, t, hst⟩ := h
  have heq : (s ++ w) ++ c :: t = a ++ b := by simpa using hst
  rcases List.append_eq_append_iff.mp heq with ⟨x, rfl, hx⟩ | ⟨x, -, rfl⟩
  · cases x with
    | nil =>
      rw [List.nil_append] at hx
      exact absurd (by simp [← hx]) hc
    | cons d x =>
      rw [List.cons_append, List.cons.injEq] at hx
      exact ⟨s, x, by simp [hx.1]⟩
  · exact absurd (by simp) hc

/-- A text that ends in a mark ends at the first place of it, or occurs behind that place. -/
theorem infix_append_cons_of_last (hc : c ∉ w) (ha : c ∉ a) (h : w ++ [c] <:+: a ++ c :: b) :
    w <:+ a ∨ w ++ [c] <:+: b := by
  obtain ⟨s, t, hst⟩ := h
  have heq : (s ++ w) ++ c :: t = a ++ c :: b := by simpa using hst
  by_cases hs : c ∈ s
  · obtain ⟨s, s', rfl, hfirst⟩ := List.eq_append_cons_of_mem hs
    have heq' : s ++ c :: (s' ++ w ++ c :: t) = a ++ c :: b := by simpa using heq
    exact .inr ⟨s', t, by simpa using ((append_cons_inj hfirst ha).mp heq').2⟩
  · have hsw : c ∉ s ++ w := by simp [hs, hc]
    exact .inl ⟨s, ((append_cons_inj hsw ha).mp heq).1⟩

end MetricsBridge.Text
