import Mathlib.Data.List.TakeWhile
import Mathlib.Tactic.SplitIfs
import MetricsBridge.Text.Basic

/-!
# Splitting at a character

`splitOn sep` cuts a text at every `sep`, and `cutAt sep` at the first.  Joining pieces in which
`sep` does not occur is undone by splitting, and a `sep` between two texts separates their pieces.
A run of characters of one kind ends where another kind begins.
-/
namespace MetricsBridge.Text

/-! ### Runs -/

section Runs

variable {p : Char → Bool} {run rest : Text}

theorem takeWhile_run (hrun : ∀ c ∈ run, p c = true) (hrest : ∀ c ∈ rest.head?, p c = false) :
    (run ++ rest).takeWhile p = run := by
  have hnil : rest.takeWhile p = [] := by
    cases rest with
    | nil => rfl
    | cons c rest => simp [hrest c rfl]
  rw [List.takeWhile_append_of_pos hrun, hnil, List.append_nil]

theorem dropWhile_run (hrun : ∀ c ∈ run, p c = true) (hrest : ∀ c ∈ rest.head?, p c = false) :
    (run ++ rest).dropWhile p = rest := by
  rw [List.dropWhile_append_of_pos hrun]
  cases rest with
  | nil => rfl
  | cons c rest => simp [hrest c rfl]

end Runs

/-! ### Pieces -/

variable {sep : Char}

theorem splitOn_ne_nil (sep : Char) (t : Text) : splitOn sep t ≠ [] := by
  cases t with
  | nil => simp [splitOn]
  | cons c t =>
    unfold splitOn
    split_ifs
    · simp
    · cases splitOn sep t <;> simp

@[simp] theorem splitOn_cons_self (sep : Char) (t : Text) :
    splitOn sep (sep :: t) = [] :: splitOn sep t := by
  rw [splitOn, if_pos rfl]

/-- A character other than the separator goes to the front of the first piece. -/
theorem splitOn_cons_of_ne {c : Char} (h : c ≠ sep) {t p : Text} {ps : List Text}
    (ht : splitOn sep t = p :: ps) : splitOn sep (c :: t) = (c :: p) :: ps := by
  rw [splitOn, if_neg h, ht]

/-- **A separator between two texts separates their pieces.** -/
theorem splitOn_append_cons (s t : Text) :
    splitOn sep (s ++ sep :: t) = splitOn sep s ++ splitOn sep t := by
  induction s with
  | nil => simp [splitOn]
  | cons c s ih =>
    by_cases hc : c = sep
    · subst hc
      simp [ih]
    · obtain ⟨p, ps, hp⟩ := List.exists_cons_of_ne_nil (splitOn_ne_nil sep s)
      rw [hp, List.cons_append] at ih
      rw [List.cons_append, splitOn_cons_of_ne hc ih, splitOn_cons_of_ne hc hp, List.cons_append]

theorem splitOn_of_not_mem {t : Text} (h : sep ∉ t) : splitOn sep t = [t] := by
  induction t with
  | nil => rfl
  | cons c t ih =>
    rw [List.mem_cons, not_or] at h
    exact splitOn_cons_of_ne (fun hc => h.1 hc.symm) (ih h.2)

theorem not_mem_of_mem_splitOn {t p : Text} (h : p ∈ splitOn sep t) : sep ∉ p := by
  induction t generalizing p with
  | nil =>
    rw [splitOn, List.mem_singleton] at h
    simp [h]
  | cons c t ih =>
    by_cases hc : c = sep
    · rw [hc, splitOn_cons_self, List.mem_cons] at h
      rcases h with rfl | h
      · simp
      · exact ih h
    · obtain ⟨q, qs, hq⟩ := List.exists_cons_of_ne_nil (splitOn_ne_nil sep t)
      rw [splitOn_cons_of_ne hc hq, List.mem_cons] at h
      rcases h with rfl | h
      · rw [List.mem_cons, not_or]
        exact ⟨fun h' => hc h'.symm, ih (by rw [hq]; exact List.mem_cons_self)⟩
      · exact ih (by rw [hq]; exact List.mem_cons_of_mem _ h)

/-- **Splitting undoes joining** where no piece has the separator. -/
theorem splitOn_joinWith : ∀ {ps : List Text}, ps ≠ [] → (∀ p ∈ ps, sep ∉ p) →
    splitOn sep (joinWith [sep] ps) = ps
  | [], h, _ => absurd rfl h
  | [p], _, h => by
    simpa [joinWith] using splitOn_of_not_mem (h p List.mem_cons_self)
  | p :: q :: ps, _, h => by
    have ih : splitOn sep (joinWith [sep] (q :: ps)) = q :: ps :=
      splitOn_joinWith (by simp) fun x hx => h x (List.mem_cons_of_mem _ hx)
    have hj : joinWith [sep] (p :: q :: ps) = p ++ sep :: joinWith [sep] (q :: ps) := by
      simp [joinWith, List.intercalate_cons_cons]
    rw [hj, splitOn_append_cons, ih, splitOn_of_not_mem (h p List.mem_cons_self),
      List.singleton_append]

/-- The separator stands in front of every part but the first. -/
theorem joinWith_cons (sep p : Text) (ps : List Text) :
    joinWith sep (p :: ps) = p ++ ps.flatMap (sep ++ ·) := by
  induction ps generalizing p with
  | nil => simp [joinWith]
  | cons q ps ih =>
    have hjoin : joinWith sep (p :: q :: ps) = p ++ sep ++ joinWith sep (q :: ps) :=
      List.intercalate_cons_cons
    rw [hjoin, ih, List.flatMap_cons, List.append_assoc, List.append_assoc]

theorem cutAt_append_cons {s : Text} (h : sep ∉ s) (t : Text) :
    cutAt sep (s ++ sep :: t) = some (s, t) := by
  have hs : ∀ c ∈ s, (c != sep) = true := fun c hc => by
    simpa using fun he : c = sep => h (he ▸ hc)
  unfold cutAt
  rw [List.dropWhile_append_of_pos hs, List.takeWhile_append_of_pos hs]
  simp

theorem cutAt_of_not_mem {t : Text} (h : sep ∉ t) : cutAt sep t = none := by
  have hdrop : t.dropWhile (· != sep) = [] := by
    rw [List.dropWhile_eq_nil_iff]
    exact fun c hc => bne_iff_ne.mpr fun he => h (he ▸ hc)
  rw [cutAt, hdrop]

theorem cutAtLast_of_not_mem {t : Text} (h : sep ∉ t) : cutAtLast sep t = none := by
  rw [cutAtLast, cutAt_of_not_mem (by simpa using h)]
  rfl

end MetricsBridge.Text
