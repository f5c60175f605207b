import MetricsBridge.Proofs.Text.Boundary
import MetricsBridge.Proofs.Text.Occurrence
import MetricsBridge.Server.Render

/-!
# What is left of a long text

A text of more than 50,000 bytes is cut to the longest start that fits, which ends at most three
bytes in front of the limit.  Where the last line break of that start has more than 49,000 bytes in
front of it, the cut is moved there (`ends_cut`).  So what is left is never much shorter than what
was allowed, and never ends within a character (`truncation_is_exact`).
-/
namespace MetricsBridge.Render

/-- The text ends where the start does or, if the last line break of the start has more than 49,000
bytes in front of it, right before that line break. -/
structure Ends (start kept : Text) : Prop where
  atLineBreak : ∀ lines rest, start = lines ++ '\n' :: rest → '\n' ∉ rest →
    kept = if 49000 < Text.byteLength lines then lines else start
  inLine : '\n' ∉ start → kept = start

namespace Ends

variable {start kept : Text}

theorem cases (h : Ends start kept) :
    kept = start ∨ 49000 < Text.byteLength kept ∧ ∃ rest, start = kept ++ '\n' :: rest := by
  by_cases hmem : '\n' ∈ start
  · obtain ⟨lines, rest, hstart, hrest⟩ := Text.exists_last_of_mem hmem
    have hkept := h.atLineBreak lines rest hstart hrest
    split_ifs at hkept with hlong
    · subst hkept
      exact .inr ⟨hlong, rest, hstart⟩
    · exact .inl hkept
  · exact .inl (h.inLine hmem)

theorem isPrefix (h : Ends start kept) : kept <+: start := by
  rcases h.cases with rfl | ⟨-, rest, hstart⟩
  · exact List.prefix_rfl
  · exact ⟨_, hstart.symm⟩

theorem lt_byteLength (h : Ends start kept) (hstart : 49000 < Text.byteLength start) :
    49000 < Text.byteLength kept := by
  rcases h.cases with rfl | ⟨hlong, -⟩
  · exact hstart
  · exact hlong

end Ends

/-! ### Cuts -/

/-- **Where a text is cut.** -/
theorem ends_cut (t : Text) : Ends (t.takeBytes maxBytes) (cut t) where
  atLineBreak := by
    intro lines rest hstart hrest
    have hlast := Text.beforeLast_append_cons hrest lines
    unfold cut lineWindow
    dsimp only
    rw [hstart, hlast, maxBytes]
  inLine := by
    intro hnone
    have hlast := Text.beforeLast_of_not_mem hnone
    unfold cut
    dsimp only
    rw [hlast]

/-- **A cut leaves a start of the text.** -/
theorem cut_prefix (t : Text) : cut t <+: t :=
  (ends_cut t).isPrefix.trans (Text.takeBytes_prefix maxBytes t)

theorem byteLength_cut_le (t : Text) : Text.byteLength (cut t) ≤ maxBytes :=
  (Text.byteLength_le_of_prefix (ends_cut t).isPrefix).trans
    (Text.byteLength_takeBytes_le maxBytes t)

/-- **A cut leaves nearly all that fits.** -/
theorem lt_byteLength_cut {t : Text} (h : maxBytes ≤ Text.byteLength t) :
    49000 < Text.byteLength (cut t) := by
  have hroom : 50000 < Text.byteLength (t.takeBytes maxBytes) + 4 := Text.lt_byteLength_takeBytes h
  apply (ends_cut t).lt_byteLength
  omega

/-- What stands behind so many bytes is cut off. -/
theorem cut_prefix_of_long {s : Text} (hs : maxBytes ≤ Text.byteLength s) (t : Text) :
    cut (s ++ t) <+: s := by
  have hkept : (s ++ t).takeBytes maxBytes <+: s := by
    rcases List.prefix_or_prefix_of_prefix (Text.takeBytes_prefix maxBytes (s ++ t))
      (List.prefix_append s t) with h | h
    · exact h
    · have hle := Text.byteLength_takeBytes_le maxBytes (s ++ t)
      obtain ⟨rest, hrest⟩ := h
      have hlength : Text.byteLength rest = 0 := by
        rw [← hrest, Text.byteLength_append] at hle
        omega
      have hnil : rest = [] := Text.byteLength_eq_zero.mp hlength
      rw [← hrest, hnil, List.append_nil]
  exact (ends_cut _).isPrefix.trans hkept

/-! ### Limits -/

theorem limit_of_short {t : Text} (h : Text.byteLength t ≤ 50000) : limit t false = t := by
  rw [limit, if_neg Bool.false_ne_true]
  exact if_pos h

theorem limit_of_long {t : Text} (h : 50000 < Text.byteLength t) :
    limit t false = cut t ++ truncationAdvice := by
  rw [limit, if_neg Bool.false_ne_true]
  exact if_neg (Nat.not_le_of_lt h)

/-- **What is limited is short**, but for the advice that follows it. -/
theorem byteLength_limit_le (t : Text) :
    Text.byteLength (limit t false) ≤ maxBytes + Text.byteLength truncationAdvice := by
  rw [limit, if_neg Bool.false_ne_true]
  split_ifs with hshort
  · exact hshort.trans (Nat.le_add_right _ _)
  · rw [Text.byteLength_append]
    exact Nat.add_le_add_right (byteLength_cut_le t) _

/-- What stands behind a start that is full is not shown. -/
theorem limit_of_full {s t : Text} (hs : 50000 ≤ Text.byteLength s) (ht : 0 < Text.byteLength t) :
    ∃ kept, limit (s ++ t) false = kept ++ truncationAdvice ∧ kept <+: s := by
  have hlong : 50000 < Text.byteLength (s ++ t) := by
    rw [Text.byteLength_append]
    omega
  exact ⟨cut (s ++ t), limit_of_long hlong, cut_prefix_of_long hs t⟩

/-- What is not cut is shown to its end. -/
theorem suffix_limit {t : Text} {isUnlimited : Bool}
    (h : isUnlimited = true ∨ Text.byteLength t ≤ 50000) : t <:+ limit t isUnlimited := by
  unfold limit
  split_ifs with hunlimited hshort
  · exact List.suffix_append _ t
  · exact List.suffix_rfl
  · exact absurd (h.resolve_left hunlimited) hshort

/-- **Truncation is exact.**  A text of at most 50,000 bytes is shown as it is.  Of a longer one the
longest start of whole characters that fits is taken: the search for a boundary that goes back from
byte 50,000 stops behind it.  The start is shown, or its part in front of its last line break if
that part has more than 49,000 bytes, and then the advice.  So what is shown of the text is a start
of it that ends between two characters, behind more than 49,000 and at most 50,000 bytes. -/
theorem truncation_is_exact (t : Text) :
    (Text.byteLength t ≤ 50000 → limit t false = t) ∧
    (50000 < Text.byteLength t → ∃ start kept,
      limit t false = kept ++ truncationAdvice ∧
      Text.IsLongestStart 50000 t start ∧
      Utf8.lastBoundary? (Utf8.encode t) 50000 = some (Text.byteLength start) ∧
      (Utf8.encode t).take (Text.byteLength start) = Utf8.encode start ∧
      Ends start kept ∧
      kept <+: t ∧ Utf8.isBoundary (Utf8.encode t) (Text.byteLength kept) = true ∧
      49000 < Text.byteLength kept ∧ Text.byteLength kept ≤ 50000) := by
  constructor
  · exact limit_of_short
  · intro hlong
    have hstart := Text.isLongestStart_takeBytes 50000 t
    have hboundary := Utf8.isBoundary_encode_iff.mpr ⟨cut t, cut_prefix t, rfl⟩
    exact ⟨t.takeBytes 50000, cut t, limit_of_long hlong, hstart, Utf8.lastBoundary?_encode 50000 t,
      Utf8.take_encode hstart.isStart, ends_cut t, cut_prefix t, hboundary,
      lt_byteLength_cut hlong.le, byteLength_cut_le t⟩

/-- A line of one byte more than the last line break needs in front of it. -/
def longLine : Text :=
  List.replicate 49001 'x'

/-- A line break behind so many bytes is the last that may be left, and a character of two bytes
goes across the limit behind it. -/
theorem truncation_is_exact_of_line_break :
    limit (longLine ++ '\n' :: 'y' :: List.replicate 2000 'é') false =
      longLine ++ truncationAdvice := by
  have hline : Text.byteLength longLine = 49001 := Text.byteLength_replicate 49001 'x'
  have hrest : Text.byteLength (List.replicate 2000 'é') = 4000 :=
    Text.byteLength_replicate 2000 'é'
  have hbreak : Text.byteLength (longLine ++ ['\n']) = 49002 := by
    rw [Text.byteLength_append, hline]
    rfl
  have hlong : 50000 < Text.byteLength (longLine ++ '\n' :: 'y' :: List.replicate 2000 'é') := by
    rw [Text.byteLength_append, Text.byteLength_cons, Text.byteLength_cons, hline, hrest]
    omega
  obtain ⟨start, kept, hlimit, hstart, -, -, hends, -⟩ :=
    (truncation_is_exact (longLine ++ '\n' :: 'y' :: List.replicate 2000 'é')).2 hlong
  -- the start goes beyond the line break, and behind it there is no other
  have hprefix : longLine ++ ['\n'] <+: start := by
    apply hstart.longest
    · exact ⟨'y' :: List.replicate 2000 'é', List.append_assoc _ _ _⟩
    · omega
  obtain ⟨rest, rfl⟩ := hprefix
  rw [List.append_assoc, List.singleton_append] at hstart hends
  have hbehind : rest <+: 'y' :: List.replicate 2000 'é' :=
    (List.prefix_cons_inj '\n').mp ((List.prefix_append_right_inj longLine).mp hstart.isStart)
  have hnone : '\n' ∉ rest := by
    intro hmem
    rcases List.mem_cons.mp (hbehind.mem hmem) with h | h
    · exact absurd h (by decide)
    · exact absurd (List.eq_of_mem_replicate h) (by decide)
  have hkept := hends.atLineBreak longLine rest rfl hnone
  rw [if_pos (by omega)] at hkept
  rw [hlimit, hkept]

end MetricsBridge.Render
