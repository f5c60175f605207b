import MetricsBridge.Proofs.Success
import MetricsBridge.Proofs.Text.Percent
import MetricsBridge.Url.Parse

/-!
# The segments of a path

`decodedPath` reads the path of an address back: it is split at its slashes, and each segment is
percent-decoded.  What is added to a path with `extend` reads back as the bytes of the texts that
were added, behind the segments that were there (`extend_of_isOrdinary`, `decodedPath_of_path`).
This holds of *ordinary* texts: dots alone are not added, and tabulators and line ends are dropped.
-/
namespace MetricsBridge.Url

/-! ## Definitions -/

/-- The bytes of the segments of the path of an address. -/
def decodedPath (u : Url) : List (List UInt8) :=
  (Text.splitOn '/' (renderPath u.path)).tail.map Percent.decodeBytes

/-- The list without an empty one at its end. -/
def withoutEmptyEnd {α : Type} (segments : List (List α)) : List (List α) :=
  if segments.getLast?.any List.isEmpty then segments.dropLast else segments

/-- No segment is empty but perhaps the last. -/
def IsTight {α : Type} (segments : List (List α)) : Prop :=
  ∀ s ∈ segments.dropLast, s ≠ []

/-- A text that is added to a path as it stands: it is not `.` or `..`, and has no tabulator and no
line end. -/
def IsOrdinary (t : Text) : Prop :=
  t ≠ ['.'] ∧ t ≠ ['.', '.'] ∧ ∀ c ∈ t, isIgnored c = false

instance (t : Text) : Decidable (IsOrdinary t) :=
  decidable_of_iff (t ≠ ['.'] ∧ t ≠ ['.', '.'] ∧ t.all (fun c => !isIgnored c) = true)
    (by simp [IsOrdinary])

/-- A text that names the place above: two dots, with a tabulator or a line end among them. -/
def ClimbsOut (t : Text) : Prop :=
  t ≠ ['.', '.'] ∧ t.filter (fun c => !isIgnored c) = ['.', '.']

instance (t : Text) : Decidable (ClimbsOut t) :=
  inferInstanceAs (Decidable (_ ∧ _))

/-- No segment holds a slash. -/
def IsSlashFree (path : List Text) : Prop :=
  ∀ s ∈ path, '/' ∉ s

/-! ## Splitting a path -/

theorem splitOn_renderPath {path : List Text} (h : IsSlashFree path) :
    Text.splitOn '/' (renderPath path) = [] :: path := by
  induction path with
  | nil => rfl
  | cons s path ih =>
    have hs : '/' ∉ s := h s List.mem_cons_self
    have ih := ih fun x hx => h x (List.mem_cons_of_mem _ hx)
    have hcons : renderPath (s :: path) = '/' :: (s ++ renderPath path) := rfl
    rw [hcons, Text.splitOn_cons_self]
    cases path with
    | nil => rw [show renderPath [] = [] from rfl, List.append_nil, Text.splitOn_of_not_mem hs]
    | cons q path =>
      rw [show renderPath (q :: path) = '/' :: (q ++ renderPath path) from rfl,
        Text.splitOn_cons_self] at ih
      rw [show renderPath (q :: path) = '/' :: (q ++ renderPath path) from rfl,
        Text.splitOn_append_cons, Text.splitOn_of_not_mem hs, (List.cons_eq_cons.mp ih).2,
        List.singleton_append]

/-- The segments of a path can be read off its text, since none holds a slash. -/
theorem decodedPath_of_path {u : Url} (h : IsSlashFree u.path) :
    decodedPath u = u.path.map Percent.decodeBytes := by
  rw [decodedPath, splitOn_renderPath h, List.tail_cons]

/-! ## Paths that have been read -/

theorem mem_above {s : Text} {reached : List Text} (h : s ∈ above reached) : s ∈ reached := by
  cases reached with
  | nil => exact h
  | cons last outer =>
    rw [above] at h
    split_ifs at h
    · exact h
    · exact List.mem_cons_of_mem _ h

/-- Resolving dots makes up no segment but the empty one. -/
theorem mem_resolve {s : Text} {reached segments : List Text} (h : s ∈ resolve reached segments) :
    s = [] ∨ s ∈ reached ∨ s ∈ segments := by
  fun_induction resolve reached segments with
  | case1 reached => exact Or.inr (Or.inl h)
  | case2 reached last hup =>
    rcases List.mem_cons.mp h with h | h
    · exact Or.inl h
    · exact Or.inr (Or.inl (mem_above h))
  | case3 reached last hup hhere =>
    rcases List.mem_cons.mp h with h | h
    · exact Or.inl h
    · exact Or.inr (Or.inl h)
  | case4 reached last hup hhere =>
    rcases List.mem_cons.mp h with h | h
    · exact Or.inr (Or.inr (by simp [h]))
    · exact Or.inr (Or.inl h)
  | case5 reached segment rest hne hup ih =>
    rcases ih h with h | h | h
    · exact Or.inl h
    · exact Or.inr (Or.inl (mem_above h))
    · exact Or.inr (Or.inr (List.mem_cons_of_mem _ h))
  | case6 reached segment rest hne hup hhere ih =>
    rcases ih h with h | h | h
    · exact Or.inl h
    · exact Or.inr (Or.inl h)
    · exact Or.inr (Or.inr (List.mem_cons_of_mem _ h))
  | case7 reached segment rest hne hup hhere ih =>
    rcases ih h with h | h | h
    · exact Or.inl h
    · rcases List.mem_cons.mp h with h | h
      · exact Or.inr (Or.inr (by simp [h]))
      · exact Or.inr (Or.inl h)
    · exact Or.inr (Or.inr (List.mem_cons_of_mem _ h))

/-- Encoding brings no slash into a text. -/
theorem slash_not_mem_encode {keeps : Char → Bool} {t : Text} (h : '/' ∉ t ∨ keeps '/' = false) :
    '/' ∉ Percent.encode keeps t := fun hm => by
  rcases Percent.mem_encode hm with ⟨ht, hk⟩ | hm | hm
  · rcases h with h | h
    · exact h ht
    · rw [h] at hk
      exact absurd hk (by decide)
  · exact absurd hm (by decide)
  · exact absurd hm (by decide)

theorem isSlashFree_parsePath (t : Text) : IsSlashFree (parsePath t) := by
  intro s hs
  rw [parsePath, List.mem_reverse] at hs
  rcases mem_resolve hs with rfl | hs | hs
  · simp
  · exact absurd hs List.not_mem_nil
  · obtain ⟨p, hp, rfl⟩ := List.mem_map.mp hs
    exact slash_not_mem_encode (Or.inl (Text.not_mem_of_mem_splitOn hp))

theorem path_of_parseWeb {scheme : Scheme} {t : Text} {u : Url} (h : parseWeb scheme t = .ok u) :
    ∃ path, u.path = parsePath path := by
  unfold parseWeb at h
  obtain ⟨⟨credentials, host, portNumber, rest⟩, -, h⟩ := bind_eq_ok.mp h
  have hu := pure_eq_ok.mp h
  subst hu
  exact ⟨_, rfl⟩

/-- **No segment of an address that has been read holds a slash.** -/
theorem isSlashFree_of_parse {t : Text} {u : Url} (h : parse t = .ok u) : IsSlashFree u.path := by
  unfold parse at h
  split at h
  · exact absurd h (by simp)
  · split_ifs at h
    · obtain ⟨path, hp⟩ := path_of_parseWeb h
      rw [hp]
      exact isSlashFree_parsePath path
    · obtain ⟨path, hp⟩ := path_of_parseWeb h
      rw [hp]
      exact isSlashFree_parsePath path
    · obtain ⟨-, -, h⟩ := bind_eq_ok.mp h
      exact absurd h throw_ne_ok

/-! ## Adding segments -/

theorem encode_inSegment_eq {s t : Text}
    (h : Percent.encode inSegment s = Percent.encode inSegment t) : s = t :=
  Percent.encode_injective (by decide) h

/-- **An ordinary text becomes one segment.** -/
theorem push_of_isOrdinary {t : Text} (h : IsOrdinary t) (path : List Text) :
    push path t = addSegment path (Percent.encode inSegment t) := by
  obtain ⟨h1, h2, hc⟩ := h
  have hfilter : t.filter (fun c => !isIgnored c) = t :=
    List.filter_eq_self.mpr fun c hm => by simp [hc c hm]
  have hone : Percent.encode inSegment t ≠ ['.'] := fun he =>
    h1 (encode_inSegment_eq (t := ['.']) he)
  have htwo : Percent.encode inSegment t ≠ ['.', '.'] := fun he =>
    h2 (encode_inSegment_eq (t := ['.', '.']) he)
  rw [push, if_neg (by simp [h1, h2]), hfilter]
  simp only [if_neg hone, if_neg htwo]

theorem addSegment_of_ne {path : List Text} (h : path ≠ [[]]) (s : Text) :
    addSegment path s = path ++ [s] := by
  rw [addSegment, if_neg h]

/-- Further ordinary texts go to the end of a path that has a segment which is not empty. -/
theorem foldl_push_of_isOrdinary {texts : List Text} (h : ∀ t ∈ texts, IsOrdinary t)
    {path : List Text} (h0 : path ≠ []) (h1 : path ≠ [[]]) :
    texts.foldl push path = path ++ texts.map (Percent.encode inSegment) := by
  induction texts generalizing path with
  | nil => simp
  | cons t texts ih =>
    rw [List.foldl_cons, push_of_isOrdinary (h t List.mem_cons_self), addSegment_of_ne h1,
      ih (fun x hx => h x (List.mem_cons_of_mem _ hx)) (by simp)]
    · simp
    · intro he
      have hl := congrArg List.length he
      simp only [List.length_append, List.length_cons, List.length_nil] at hl
      exact h0 (List.eq_nil_of_length_eq_zero (by omega))

theorem withoutEmptyEnd_concat_nil {α : Type} (q : List (List α)) :
    withoutEmptyEnd (q ++ [[]]) = q := by
  simp [withoutEmptyEnd]

theorem withoutEmptyEnd_concat_cons {α : Type} (q : List (List α)) (a : α) (s : List α) :
    withoutEmptyEnd (q ++ [a :: s]) = q ++ [a :: s] := by
  simp [withoutEmptyEnd]

/-- Whether a path ends in an empty segment can be seen after decoding. -/
theorem map_withoutEmptyEnd (path : List Text) :
    (withoutEmptyEnd path).map Percent.decodeBytes =
      withoutEmptyEnd (path.map Percent.decodeBytes) := by
  rcases List.eq_nil_or_concat path with rfl | ⟨q, last, rfl⟩
  · rfl
  · rw [List.concat_eq_append, List.map_append, List.map_singleton]
    cases last with
    | nil => simp [withoutEmptyEnd, Percent.decodeBytes]
    | cons c last =>
      have hne : Percent.decodeBytes (c :: last) ≠ [] := by simp [Percent.decodeBytes_eq_nil]
      simp [withoutEmptyEnd, hne]

/-- What `extend` adds first takes the place of an empty segment at the end. -/
theorem addSegment_dropEmptyEnd {path : List Text} (h : IsTight path) (s : Text) :
    addSegment (dropEmptyEnd path) s = withoutEmptyEnd path ++ [s] := by
  rcases List.eq_nil_or_concat path with rfl | ⟨q, last, rfl⟩
  · rfl
  · rw [List.concat_eq_append] at h ⊢
    cases last with
    | nil =>
      rw [withoutEmptyEnd_concat_nil]
      by_cases hq : q = []
      · subst hq
        rfl
      · have hlen : 0 < q.length := List.length_pos_iff.mpr hq
        have hdrop : dropEmptyEnd (q ++ [[]]) = q := by
          simp [dropEmptyEnd, hlen]
        have hne : q ≠ [[]] := by
          rintro rfl
          exact h [] (by simp) rfl
        rw [hdrop, addSegment_of_ne hne]
    | cons c last =>
      have hdrop : dropEmptyEnd (q ++ [c :: last]) = q ++ [c :: last] := by
        simp [dropEmptyEnd]
      have hne : q ++ [c :: last] ≠ [[]] := fun he => by
        cases q <;> simp at he
      rw [withoutEmptyEnd_concat_cons, hdrop, addSegment_of_ne hne]

/-- **Ordinary texts become the segments behind those of the path.** -/
theorem extend_of_isOrdinary {path : List Text} (hp : IsTight path) {t : Text} (ht : t ≠ [])
    {texts : List Text} (h : ∀ x ∈ t :: texts, IsOrdinary x) :
    extend path (t :: texts) =
      withoutEmptyEnd path ++ (t :: texts).map (Percent.encode inSegment) := by
  have hne : Percent.encode inSegment t ≠ [] := fun he => ht (encode_inSegment_eq (t := []) he)
  rw [extend, List.foldl_cons, push_of_isOrdinary (h t List.mem_cons_self),
    addSegment_dropEmptyEnd hp,
    foldl_push_of_isOrdinary (fun x hx => h x (List.mem_cons_of_mem _ hx)) (by simp)]
  · simp
  · intro he
    have hl : (withoutEmptyEnd path ++ [Percent.encode inSegment t]).getLast? = some [] := by
      rw [he]
      rfl
    simp at hl
    exact hne hl

theorem extend_append (path s t : List Text) :
    extend path (s ++ t) = t.foldl push (extend path s) := by
  simp [extend]

theorem isSlashFree_addSegment {path : List Text} (h : IsSlashFree path) {s : Text} (hs : '/' ∉ s) :
    IsSlashFree (addSegment path s) := by
  intro x hx
  unfold addSegment at hx
  split_ifs at hx
  · rw [List.mem_singleton] at hx
    exact hx ▸ hs
  · rcases List.mem_append.mp hx with hx | hx
    · exact h x hx
    · rw [List.mem_singleton] at hx
      exact hx ▸ hs

theorem isSlashFree_push {path : List Text} (h : IsSlashFree path) (t : Text) :
    IsSlashFree (push path t) := by
  dsimp only [push]
  split_ifs
  · exact h
  · exact isSlashFree_addSegment h (by simp)
  · exact h
  · intro x hx
    rcases List.mem_cons.mp (List.mem_reverse.mp hx) with rfl | hx
    · simp
    · exact h x (List.mem_reverse.mp (mem_above hx))
  · exact isSlashFree_addSegment h (slash_not_mem_encode (Or.inr (by decide)))

/-- Whatever is added to a path, the slashes of its text still separate its segments. -/
theorem isSlashFree_extend {path : List Text} (h : IsSlashFree path) (texts : List Text) :
    IsSlashFree (extend path texts) := by
  have hdrop : IsSlashFree (dropEmptyEnd path) := fun s hs => by
    unfold dropEmptyEnd at hs
    split_ifs at hs
    · exact h s (List.dropLast_subset _ hs)
    · exact h s hs
  unfold extend
  generalize dropEmptyEnd path = path at hdrop
  induction texts generalizing path with
  | nil => exact hdrop
  | cons t texts ih => exact ih _ (isSlashFree_push hdrop t)

/-! ## Texts that are not ordinary -/

theorem length_above_le (reached : List Text) : (above reached).length ≤ reached.length := by
  cases reached with
  | nil => simp [above]
  | cons last outer =>
    rw [above]
    split_ifs <;> simp

theorem length_addSegment_le (path : List Text) (s : Text) :
    (addSegment path s).length ≤ path.length + 1 := by
  unfold addSegment
  split_ifs <;> simp

theorem length_push_le (path : List Text) (t : Text) : (push path t).length ≤ path.length + 1 := by
  have ha := length_above_le path.reverse
  rw [List.length_reverse] at ha
  dsimp only [push]
  split_ifs
  · omega
  · exact length_addSegment_le _ _
  · omega
  · simpa using ha
  · exact length_addSegment_le _ _

theorem filter_ne_self {t : Text} (h1 : t ≠ ['.']) (h2 : t ≠ ['.', '.']) (h : ¬ IsOrdinary t) :
    t.filter (fun c => !isIgnored c) ≠ t := fun he => by
  refine h ⟨h1, h2, fun c hc => ?_⟩
  simpa using List.filter_eq_self.mp he c hc

/-- **Other texts are lost or changed**: the path does not grow, or it grows by a segment that reads
back as something else. -/
theorem push_of_not_isOrdinary {t : Text} (h : ¬ IsOrdinary t) {path : List Text} (h0 : path ≠ [])
    (h1 : path ≠ [[]]) : (push path t).length ≤ path.length ∨
      ∃ s, push path t = path ++ [s] ∧ Percent.decodeBytes s ≠ Utf8.encode t := by
  by_cases hdots : t = ['.'] ∨ t = ['.', '.']
  · rw [push, if_pos hdots]
    exact Or.inl (Nat.le_refl _)
  rw [not_or] at hdots
  have hf := filter_ne_self hdots.1 hdots.2 h
  have ht : Utf8.encode t ≠ [] := by
    intro he
    have : t = [] := Utf8.encode_injective (t := []) he
    subst this
    exact hf rfl
  rw [push, if_neg (by simp [hdots])]
  simp only
  split_ifs with hone htwo
  · exact Or.inr ⟨[], addSegment_of_ne h1 [], fun he => ht he.symm⟩
  · -- two dots leave an empty segment, in place of the last one unless that is a drive
    obtain ⟨q, last, rfl⟩ := (List.eq_nil_or_concat path).resolve_left h0
    simp only [List.concat_eq_append, List.reverse_append, List.reverse_cons, List.reverse_nil,
      List.nil_append, List.singleton_append, above]
    split_ifs
    · exact Or.inr ⟨[], by simp, fun he => ht he.symm⟩
    · exact Or.inl (by simp)
  · refine Or.inr ⟨_, addSegment_of_ne h1 _, ?_⟩
    rw [Percent.decodeBytes_encode (by decide)]
    exact fun he => hf (Utf8.encode_injective he)

theorem encode_filter_eq_dots {t : Text} :
    Percent.encode inSegment (t.filter fun c => !isIgnored c) = ['.', '.'] ↔
      t.filter (fun c => !isIgnored c) = ['.', '.'] :=
  ⟨fun h => encode_inSegment_eq (t := ['.', '.']) h, fun h => by rw [h]; rfl⟩

/-- Only a text that climbs out takes anything away from a path. -/
theorem prefix_push {t : Text} (h : ¬ ClimbsOut t) {path : List Text} (h1 : path ≠ [[]]) :
    path <+: push path t := by
  dsimp only [push]
  split_ifs with hdots hone htwo
  · exact List.prefix_refl _
  · rw [addSegment_of_ne h1]
    exact List.prefix_append _ _
  · rw [not_or] at hdots
    exact absurd ⟨hdots.2, encode_filter_eq_dots.mp htwo⟩ h
  · rw [addSegment_of_ne h1]
    exact List.prefix_append _ _

theorem push_of_climbsOut {t : Text} (h : ClimbsOut t) {path : List Text} (h1 : path ≠ [[]]) :
    push path t = ([] :: above path.reverse).reverse := by
  have hone : t ≠ ['.'] := fun he => by
    subst he
    exact absurd h.2 (by decide)
  have htwo := encode_filter_eq_dots.mpr h.2
  rw [push, if_neg (by simp [hone, h.1]), htwo]
  simp [h1]

end MetricsBridge.Url
