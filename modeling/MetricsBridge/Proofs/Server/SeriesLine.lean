import MetricsBridge.Proofs.Text.Quoted
import MetricsBridge.Proofs.Text.Split
import MetricsBridge.Proofs.Text.Table
import MetricsBridge.Server.Render

/-!
# Lines that show series

A series is shown as the name of its metric and its other labels, each with its value in quotes.
The names have none of the marks that stand between the parts, and a quoted value can be told
whatever follows it.  So the parts can be read one by one from the left, and the line shows which
series it is of (`lines_tell_series_apart`).
-/
namespace MetricsBridge

/-- A name: a letter or one of the marks, and then letters, digits and marks. -/
def IsName (marks : List Char) : Text → Prop
  | [] => False
  | c :: rest => (c.isAlpha = true ∨ c ∈ marks) ∧ ∀ d ∈ rest, d.isAlphanum = true ∨ d ∈ marks

/-- The labels of a series: their names are in order, each once, and made of letters, digits and
underscores, none of them with a digit in front.  The name of the metric may have colons, too. -/
structure Labels.IsLegal (labels : Labels) : Prop where
  isAscending : Table.IsAscending labels
  isName : ∀ l ∈ labels, IsName ['_'] l.1
  isMetricName : ∀ name, Table.get? labels Labels.metricName = some name → IsName ['_', ':'] name

/-! ### Names -/

namespace IsName

variable {marks : List Char} {t : Text} {c : Char}

theorem ne_nil (h : IsName marks t) : t ≠ [] := by
  rintro rfl
  exact h

/-- A character that is no letter, no digit and no mark of names is in none of them. -/
theorem notMem (h : IsName marks t) (hc : c.isAlphanum = false) (hmarks : c ∉ marks) : c ∉ t := by
  cases t with
  | nil => exact List.not_mem_nil
  | cons d rest =>
    obtain ⟨hfirst, hrest⟩ := h
    intro hmem
    rcases List.mem_cons.mp hmem with rfl | hmem
    · rcases hfirst with halpha | hmark
      · rw [Char.isAlphanum, halpha] at hc
        exact absurd hc (by simp)
      · exact hmarks hmark
    · rcases hrest c hmem with halnum | hmark
      · rw [hc] at halnum
        exact Bool.false_ne_true halnum
      · exact hmarks hmark

end IsName

/-! ### Labels -/

namespace Render

/-- A label as it is shown. -/
def labelText (l : Text × Text) : Text :=
  l.1 ++ '=' :: Quoted.encode l.2

/-- The labels of a series, but for the name of its metric. -/
def otherLabels (labels : Labels) : Labels :=
  labels.filter (·.1 != Labels.metricName)

/-- What stands behind the first label. -/
def moreLabels (ls : Labels) : Text :=
  ls.flatMap (fun l => ',' :: ' ' :: labelText l) ++ ['\x7d']

theorem series_eq (labels : Labels) : series labels =
    (Table.get? labels Labels.metricName).getD []
      ++ '\x7b' ::
        (Text.joinWith ", ".toList ((otherLabels labels).map labelText) ++ ['\x7d']) := by
  rw [series, List.append_assoc]
  rfl

theorem joinWith_labels (l : Text × Text) (ls : Labels) :
    Text.joinWith ", ".toList ((l :: ls).map labelText) ++ ['\x7d'] =
      labelText l ++ moreLabels ls := by
  rw [List.map_cons, Text.joinWith_cons, List.flatMap_map, List.append_assoc]
  rfl

section Labels

variable {l k : Text × Text} {ls ks : Labels} {r r' : Text}

theorem labelText_append (l : Text × Text) (r : Text) :
    labelText l ++ r = l.1 ++ '=' :: (Quoted.encode l.2 ++ r) := by
  rw [labelText, List.append_assoc, List.cons_append]

/-- **The first label can be told**, whatever follows. -/
theorem labelText_append_inj (hl : IsName ['_'] l.1) (hk : IsName ['_'] k.1)
    (h : labelText l ++ r = labelText k ++ r') : l = k ∧ r = r' := by
  rw [labelText_append, labelText_append, Text.append_cons_inj (hl.notMem rfl (by decide))
    (hk.notMem rfl (by decide))] at h
  obtain ⟨hname, hbehind⟩ := h
  obtain ⟨hvalue, hrest⟩ := Quoted.encode_append_inj hbehind
  exact ⟨Prod.ext hname hvalue, hrest⟩

/-- No label is shown with a brace in front. -/
theorem labelText_append_ne (hl : IsName ['_'] l.1) (r r' : Text) :
    labelText l ++ r ≠ '\x7d' :: r' := by
  intro h
  obtain ⟨c, name, hname⟩ := List.exists_cons_of_ne_nil hl.ne_nil
  have hbrace : '\x7d' ∉ l.1 := hl.notMem rfl (by decide)
  rw [labelText_append, hname, List.cons_append] at h
  rw [hname, (List.cons.inj h).1] at hbrace
  exact hbrace List.mem_cons_self

/-- **All further labels can be told.** -/
theorem moreLabels_inj (hls : ∀ l ∈ ls, IsName ['_'] l.1) (hks : ∀ k ∈ ks, IsName ['_'] k.1)
    (h : moreLabels ls = moreLabels ks) : ls = ks := by
  have hcons : ∀ (l : Text × Text) (ls : Labels),
      moreLabels (l :: ls) = ',' :: ' ' :: (labelText l ++ moreLabels ls) := by
    intro l ls
    simp [moreLabels]
  induction ls generalizing ks with
  | nil =>
    cases ks with
    | nil => rfl
    | cons k ks =>
      rw [hcons] at h
      exact absurd (List.cons.inj h).1 (by decide)
  | cons l ls ih =>
    rw [hcons] at h
    cases ks with
    | nil => exact absurd (List.cons.inj h).1 (by decide)
    | cons k ks =>
      obtain ⟨hl, hls'⟩ := List.forall_mem_cons.mp hls
      obtain ⟨hk, hks'⟩ := List.forall_mem_cons.mp hks
      rw [hcons] at h
      obtain ⟨rfl, hmore⟩ := labelText_append_inj hl hk (List.cons.inj (List.cons.inj h).2).2
      rw [ih hls' hks' hmore]

theorem joinWith_labels_inj (hls : ∀ l ∈ ls, IsName ['_'] l.1) (hks : ∀ k ∈ ks, IsName ['_'] k.1)
    (h : Text.joinWith ", ".toList (ls.map labelText) ++ ['\x7d'] =
      Text.joinWith ", ".toList (ks.map labelText) ++ ['\x7d']) : ls = ks := by
  cases ls with
  | nil =>
    cases ks with
    | nil => rfl
    | cons k ks =>
      rw [joinWith_labels] at h
      exact absurd h.symm (labelText_append_ne (hks k List.mem_cons_self) _ _)
  | cons l ls =>
    rw [joinWith_labels] at h
    obtain ⟨hl, hls'⟩ := List.forall_mem_cons.mp hls
    cases ks with
    | nil => exact absurd h (labelText_append_ne hl _ _)
    | cons k ks =>
      obtain ⟨hk, hks'⟩ := List.forall_mem_cons.mp hks
      rw [joinWith_labels] at h
      obtain ⟨rfl, hmore⟩ := labelText_append_inj hl hk h
      rw [moreLabels_inj hls' hks' hmore]

theorem notMem_labelText (hl : IsName ['_'] l.1) : '\n' ∉ labelText l := by
  rw [labelText, List.mem_append, List.mem_cons, not_or, not_or]
  exact ⟨hl.notMem rfl (by decide), by decide, Quoted.notMem_encode l.2⟩

end Labels

/-! ### Series -/

section Series

variable {a b : Labels}

/-- Labels are known by the name of the metric and the others. -/
theorem eq_of_otherLabels (ha : Table.IsAscending a) (hb : Table.IsAscending b)
    (hmetric : Table.get? a Labels.metricName = Table.get? b Labels.metricName)
    (hothers : otherLabels a = otherLabels b) : a = b := by
  apply ha.ext hb
  intro name
  by_cases hname : name = Labels.metricName
  · rw [hname, hmetric]
  · have hmem : ∀ (labels : Labels) (value : Text),
        (name, value) ∈ labels ↔ (name, value) ∈ otherLabels labels := by
      intro labels value
      simp [otherLabels, hname]
    apply Option.ext
    intro value
    rw [← ha.mem_iff, ← hb.mem_iff, hmem a, hmem b, hothers]

/-- What stands in front of the brace is the name of the metric, and nothing if there is none. -/
theorem metricName_inj (ha : a.IsLegal) (hb : b.IsLegal)
    (h : (Table.get? a Labels.metricName).getD [] = (Table.get? b Labels.metricName).getD []) :
    Table.get? a Labels.metricName = Table.get? b Labels.metricName := by
  have hname := ha.isMetricName
  have hname' := hb.isMetricName
  generalize Table.get? a Labels.metricName = x at h hname ⊢
  generalize Table.get? b Labels.metricName = y at h hname' ⊢
  cases x with
  | none =>
    cases y with
    | none => rfl
    | some name => exact absurd h.symm (hname' name rfl).ne_nil
  | some name =>
    cases y with
    | none => exact absurd h (hname name rfl).ne_nil
    | some name' => exact congrArg some h

theorem notMem_metricName {c : Char} (ha : a.IsLegal) (hc : c.isAlphanum = false)
    (hmarks : c ∉ ['_', ':']) : c ∉ (Table.get? a Labels.metricName).getD [] := by
  have hname := ha.isMetricName
  generalize Table.get? a Labels.metricName = x at hname ⊢
  cases x with
  | none => exact List.not_mem_nil
  | some name => exact (hname name rfl).notMem hc hmarks

theorem isName_otherLabels (ha : a.IsLegal) : ∀ l ∈ otherLabels a, IsName ['_'] l.1 :=
  fun l hl => ha.isName l (List.mem_of_mem_filter hl)

theorem series_inj (ha : a.IsLegal) (hb : b.IsLegal) (h : series a = series b) : a = b := by
  rw [series_eq, series_eq, Text.append_cons_inj (notMem_metricName ha rfl (by decide))
    (notMem_metricName hb rfl (by decide))] at h
  obtain ⟨hmetric, hothers⟩ := h
  exact eq_of_otherLabels ha.isAscending hb.isAscending (metricName_inj ha hb hmetric)
    (joinWith_labels_inj (isName_otherLabels ha) (isName_otherLabels hb) hothers)

/-- **A series is shown on one line.** -/
theorem notMem_series (ha : a.IsLegal) : '\n' ∉ series a := by
  have hlabels : '\n' ∉ Text.joinWith ", ".toList ((otherLabels a).map labelText) := by
    have hnames := isName_otherLabels ha
    cases hothers : otherLabels a with
    | nil => exact List.not_mem_nil
    | cons l ls =>
      rw [hothers] at hnames
      obtain ⟨hl, hls⟩ := List.forall_mem_cons.mp hnames
      rw [List.map_cons, Text.joinWith_cons, List.flatMap_map, List.mem_append, not_or,
        List.mem_flatMap]
      refine ⟨notMem_labelText hl, ?_⟩
      rintro ⟨k, hk, hmem⟩
      rcases List.mem_append.mp hmem with h | h
      · exact absurd h (by decide)
      · exact notMem_labelText (hls k hk) h
  rw [series_eq, List.mem_append, List.mem_cons, List.mem_append, List.mem_singleton]
  rintro (h | h | h | h)
  · exact notMem_metricName ha rfl (by decide) h
  · exact absurd h (by decide)
  · exact hlabels h
  · exact absurd h (by decide)

end Series

end Render

/-- **Lines tell series apart.**  Two series whose labels have legal names are shown by the same
text only if they have the same labels with the same values, whatever characters the values have;
and each of them is shown on one line. -/
theorem lines_tell_series_apart {a b : Labels} (ha : a.IsLegal) (hb : b.IsLegal) :
    (Render.series a = Render.series b ↔ ∀ name, Table.get? a name = Table.get? b name) ∧
      '\n' ∉ Render.series a ∧ '\n' ∉ Render.series b := by
  refine ⟨⟨?_, ?_⟩, Render.notMem_series ha, Render.notMem_series hb⟩
  · intro h name
    rw [Render.series_inj ha hb h]
  · intro h
    rw [ha.isAscending.ext hb.isAscending h]

/-- The labels of a series of which one value reads like the end of its label and another label. -/
def forgedLabels : Labels :=
  [("__name__".toList, "up".toList), ("a".toList, "1\", b=\"2\n".toList)]

/-- The labels that the value of the other series is made to read like. -/
def plainLabels : Labels :=
  [("__name__".toList, "up".toList), ("a".toList, "1".toList), ("b".toList, "2\n".toList)]

/-- A value with quotes in it does not pass for two labels. -/
theorem lines_tell_series_apart_of_forged :
    Labels.IsLegal forgedLabels ∧ Labels.IsLegal plainLabels ∧
      Render.series forgedLabels = "up\x7ba=\"1\\\", b=\\\"2\\n\"\x7d".toList ∧
      Render.series forgedLabels ≠ Render.series plainLabels := by
  have hforged : Labels.IsLegal forgedLabels :=
    ⟨by rw [Table.IsAscending, forgedLabels]; decide, by simp [forgedLabels, IsName],
      by rintro name ⟨⟩; simp [IsName]⟩
  have hplain : Labels.IsLegal plainLabels :=
    ⟨by rw [Table.IsAscending, plainLabels]; decide, by simp [plainLabels, IsName],
      by rintro name ⟨⟩; simp [IsName]⟩
  refine ⟨hforged, hplain, by decide +kernel, ?_⟩
  intro h
  have hsame := (lines_tell_series_apart hforged hplain).1.mp h "b".toList
  exact absurd hsame (by decide +kernel)

end MetricsBridge
