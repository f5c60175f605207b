import Mathlib
import MetricsBridge.Backend.Options
import MetricsBridge.Proofs.Number.Digits
import MetricsBridge.Proofs.Text.Split

/-!
# How spans are written

A span that is no number of seconds is made of parts, such as `1h30m`.  Reading takes one part after
the other and looks for its unit among those that are left (`partsMillis?_eq_some`).  So **a text is
read as a span exactly if it is made of parts with their units in order**, and its milliseconds stay
below `2 ^ 64` (`span_of_parts_iff`).
-/
namespace MetricsBridge

namespace Span

/-- A part of a span: some digits, and the unit that they count. -/
structure Part where
  digits : Text
  unit : TimeUnit
  digits_ne : digits ≠ []
  isDigit : ∀ c ∈ digits, isDigit c = true

namespace Part

/-- The digits with the name of the unit behind them. -/
def text (p : Part) : Text :=
  p.digits ++ p.unit.name

/-- The milliseconds of the part. -/
def millis (p : Part) : Nat :=
  digitsValue p.digits * p.unit.millis

end Part

/-- The milliseconds of all parts. -/
def totalMillis (parts : List Part) : Nat :=
  (parts.map Part.millis).sum

/-- The text is made of the parts, one behind the other, and their units are some of those given, in
the same order and each at most once. -/
structure IsMadeOf (units : List TimeUnit) (t : Text) (parts : List Part) : Prop where
  sublist : (parts.map Part.unit).Sublist units
  text_eq : t = parts.flatMap Part.text

/-- The text is made of one or more parts that come to so many milliseconds. -/
def Spells (t : Text) (millis : Nat) : Prop :=
  ∃ parts, parts ≠ [] ∧ IsMadeOf units t parts ∧ totalMillis parts = millis

/-- Units that can be told apart: their names differ, and each is made of letters. -/
structure AreTold (units : List TimeUnit) : Prop where
  nodup : (units.map TimeUnit.name).Nodup
  ne_nil : ∀ u ∈ units, u.name ≠ []
  isAlpha : ∀ u ∈ units, ∀ c ∈ u.name, c.isAlpha = true

theorem areTold_units : AreTold units where
  nodup := by simp [units]
  ne_nil := by simp [units]
  isAlpha := by simp [units]

/-! ### One part -/

section Part

variable {t rest name : Text} {n : Nat} {parts : List Part}

/-- What stands behind a part is empty or starts with a digit. -/
theorem isDigit_of_head? : ∀ c ∈ (parts.flatMap Part.text).head?, isDigit c = true := by
  intro c hc
  cases parts with
  | nil => simp at hc
  | cons p parts =>
    obtain ⟨d, digits, hdigits⟩ := List.exists_cons_of_ne_nil p.digits_ne
    have hd : d = c := by simpa [Part.text, hdigits] using hc
    apply p.isDigit
    simp [hdigits, hd]

/-- A part is read from the start of a text. -/
theorem part?_append (p : Part) (hne : p.unit.name ≠ [])
    (halpha : ∀ c ∈ p.unit.name, c.isAlpha = true) (hrest : ∀ c ∈ rest.head?, isDigit c = true) :
    part? (p.text ++ rest) = some (digitsValue p.digits, p.unit.name, rest) := by
  have hname : ∀ c ∈ (p.unit.name ++ rest).head?, isDigit c = false := by
    obtain ⟨d, more, hcons⟩ := List.exists_cons_of_ne_nil hne
    intro c hc
    have hd : d = c := by simpa [hcons] using hc
    apply isDigit_eq_false_of_isAlpha
    apply halpha
    simp [hcons, hd]
  have hletter : ∀ c ∈ rest.head?, c.isAlpha = false :=
    fun c hc => isAlpha_eq_false_of_isDigit (hrest c hc)
  unfold part? Part.text
  rw [List.append_assoc, Text.takeWhile_run p.isDigit hname, Text.dropWhile_run p.isDigit hname]
  dsimp only
  rw [Text.takeWhile_run halpha hletter, Text.dropWhile_run halpha hletter, if_neg p.digits_ne]

/-- What is read as a part are digits, letters and what follows them. -/
theorem of_part?_eq_some (h : part? t = some (n, name, rest)) : ∃ digits, digits ≠ [] ∧
    (∀ c ∈ digits, isDigit c = true) ∧ digitsValue digits = n ∧ t = digits ++ (name ++ rest) := by
  unfold part? at h
  dsimp only at h
  split_ifs at h with hne
  simp only [Option.some.injEq, Prod.mk.injEq] at h
  obtain ⟨hn, hname, hrest⟩ := h
  refine ⟨t.takeWhile isDigit, hne, fun c hc => List.mem_takeWhile_imp hc, hn, ?_⟩
  rw [← hname, ← hrest, List.takeWhile_append_dropWhile, List.takeWhile_append_dropWhile]

end Part

/-! ### All parts -/

section Parts

variable {unit : TimeUnit} {units : List TimeUnit} {t : Text} {parts : List Part}

theorem AreTold.tail (h : AreTold (unit :: units)) : AreTold units where
  nodup := (List.nodup_cons.mp h.nodup).2
  ne_nil := fun u hu => h.ne_nil u (List.mem_cons_of_mem _ hu)
  isAlpha := fun u hu => h.isAlpha u (List.mem_cons_of_mem _ hu)

/-- A unit is none of those behind it. -/
theorem AreTold.name_ne (h : AreTold (unit :: units)) {u : TimeUnit} (hu : u ∈ units) :
    u.name ≠ unit.name := by
  intro heq
  apply (List.nodup_cons.mp h.nodup).1
  rw [← heq]
  exact List.mem_map_of_mem hu

/-- Only nothing is made of no parts. -/
theorem IsMadeOf.eq_nil_iff (h : IsMadeOf units t parts) : t = [] ↔ parts = [] := by
  constructor
  · intro ht
    cases parts with
    | nil => rfl
    | cons p parts =>
      have htext : p.digits ++ p.unit.name ++ parts.flatMap Part.text = [] :=
        h.text_eq.symm.trans ht
      exact absurd (List.append_eq_nil_iff.mp (List.append_eq_nil_iff.mp htext).1).1 p.digits_ne
  · rintro rfl
    exact h.text_eq

theorem isMadeOf_nil : IsMadeOf units [] [] where
  sublist := List.nil_sublist _
  text_eq := rfl

/-- The first part of a text is what is read first. -/
theorem IsMadeOf.part?_eq (hu : AreTold units) {p : Part} (h : IsMadeOf units t (p :: parts)) :
    part? t = some (digitsValue p.digits, p.unit.name, parts.flatMap Part.text) := by
  have hmem : p.unit ∈ units := h.sublist.mem (by simp)
  rw [h.text_eq, List.flatMap_cons]
  exact part?_append p (hu.ne_nil _ hmem) (hu.isAlpha _ hmem) isDigit_of_head?

/-- Units with the same name are the same. -/
theorem AreTold.eq_of_name_eq (h : AreTold units) {u u' : TimeUnit} (hu : u ∈ units)
    (hu' : u' ∈ units) (hname : u.name = u'.name) : u = u' :=
  List.inj_on_of_nodup_map h.nodup hu hu' hname

/-- A text is made of parts in one way, so that it comes to one number. -/
theorem IsMadeOf.totalMillis_eq (hu : AreTold units) {parts' : List Part}
    (h : IsMadeOf units t parts) (h' : IsMadeOf units t parts') :
    totalMillis parts = totalMillis parts' := by
  induction parts generalizing t parts' with
  | nil =>
    have ht : t = [] := h.eq_nil_iff.mpr rfl
    rw [h'.eq_nil_iff.mp ht]
  | cons p parts ih =>
    cases parts' with
    | nil =>
      have ht : t = [] := h'.eq_nil_iff.mpr rfl
      exact absurd (h.eq_nil_iff.mp ht) (List.cons_ne_nil p parts)
    | cons p' parts' =>
      have hpart := (h.part?_eq hu).symm.trans (h'.part?_eq hu)
      simp only [Option.some.injEq, Prod.mk.injEq] at hpart
      obtain ⟨hnumber, hname, htext⟩ := hpart
      have hunit : p.unit = p'.unit :=
        hu.eq_of_name_eq (h.sublist.mem (by simp)) (h'.sublist.mem (by simp)) hname
      have hmillis : p.millis = p'.millis := by rw [Part.millis, Part.millis, hnumber, hunit]
      have hrest : IsMadeOf units (parts.flatMap Part.text) parts :=
        ⟨(List.sublist_cons_self _ _).trans h.sublist, rfl⟩
      have hrest' : IsMadeOf units (parts.flatMap Part.text) parts' :=
        ⟨(List.sublist_cons_self _ _).trans h'.sublist, htext⟩
      have htotal := ih hrest hrest'
      simp only [totalMillis, List.map_cons, List.sum_cons] at htotal ⊢
      rw [hmillis, htotal]

/-- **Reading a text of parts.**  The units that are left decide which parts may follow. -/
theorem partsMillis?_eq_some (hu : AreTold units) {n : Nat} : partsMillis? units t = some n ↔
    ∃ parts, IsMadeOf units t parts ∧ totalMillis parts = n ∧ n < 2 ^ 64 := by
  induction units generalizing t n with
  | nil =>
    have hnone : ∀ parts, IsMadeOf [] t parts → parts = [] := fun parts h =>
      List.map_eq_nil_iff.mp (List.sublist_nil.mp h.sublist)
    rw [partsMillis?]
    split_ifs with ht
    · subst ht
      constructor
      · rintro ⟨⟩
        exact ⟨[], isMadeOf_nil, rfl, by norm_num⟩
      · rintro ⟨parts, h, rfl, -⟩
        rw [hnone parts h]
        rfl
    · constructor
      · rintro ⟨⟩
      · rintro ⟨parts, h, -, -⟩
        exact absurd (h.eq_nil_iff.mpr (hnone parts h)) ht
  | cons unit units ih =>
    have hunits := hu.tail
    rw [partsMillis?]
    split_ifs with ht
    · subst ht
      constructor
      · rintro ⟨⟩
        exact ⟨[], isMadeOf_nil, rfl, by norm_num⟩
      · rintro ⟨parts, h, rfl, -⟩
        rw [h.eq_nil_iff.mp rfl]
        rfl
    · simp only [Option.bind_eq_bind, Option.bind_eq_some_iff]
      constructor
      · rintro ⟨⟨number, name, rest⟩, hpart, h⟩
        dsimp only at h
        obtain ⟨digits, hne, hdigits, rfl, rfl⟩ := of_part?_eq_some hpart
        split_ifs at h with hname
        · -- The part has this unit, and the others have those behind it.
          subst hname
          obtain ⟨more, hmore, h⟩ := Option.bind_eq_some_iff.mp h
          split_ifs at h with hsum
          cases h
          obtain ⟨parts, hparts, rfl, -⟩ := (ih hunits).mp hmore
          let p : Part := ⟨digits, unit, hne, hdigits⟩
          refine ⟨p :: parts, ⟨?_, ?_⟩, rfl, hsum⟩
          · exact hparts.sublist.cons_cons unit
          · rw [List.flatMap_cons, ← hparts.text_eq, Part.text, List.append_assoc]
        · obtain ⟨parts, hparts, hn, hlt⟩ := (ih hunits).mp h
          exact ⟨parts, ⟨hparts.sublist.cons unit, hparts.text_eq⟩, hn, hlt⟩
      · rintro ⟨parts, h, rfl, hlt⟩
        cases parts with
        | nil => exact absurd (h.eq_nil_iff.mpr rfl) ht
        | cons p parts =>
          refine ⟨_, h.part?_eq hu, ?_⟩
          dsimp only
          rcases List.sublist_cons_iff.mp h.sublist with hsub | ⟨_, hcons, hsub⟩
          · have hmem : p.unit ∈ units := hsub.mem (by simp)
            rw [if_neg (hu.name_ne hmem)]
            exact (ih hunits).mpr ⟨p :: parts, ⟨hsub, h.text_eq⟩, rfl, hlt⟩
          · obtain ⟨rfl, rfl⟩ := List.cons.inj hcons
            have htotal : totalMillis (p :: parts) = p.millis + totalMillis parts :=
              List.sum_cons
            rw [htotal] at hlt ⊢
            have hrest : partsMillis? units (parts.flatMap Part.text) = some (totalMillis parts) :=
              (ih hunits).mpr ⟨parts, ⟨hsub, rfl⟩, rfl, by omega⟩
            rw [if_pos rfl, hrest]
            exact if_pos hlt

end Parts

/-! ### Spans -/

section Spans

variable {input : Text}

theorem Spells.unique {t : Text} {n m : Nat} (hn : Spells t n) (hm : Spells t m) : n = m := by
  obtain ⟨parts, -, hparts, rfl⟩ := hn
  obtain ⟨parts', -, hparts', rfl⟩ := hm
  exact hparts.totalMillis_eq areTold_units hparts'

/-- A text that is no number is read as a span if it spells one. -/
theorem parse?_of_not_literal (h : Literal.parse? (Text.trim input) = none) {span : Span} :
    parse? input = some span ↔
      ∃ n, Spells (Text.trim input) n ∧ n < 2 ^ 64 ∧ span = ofMillis n := by
  unfold parse?
  dsimp only
  split_ifs with ht
  · constructor
    · rintro ⟨⟩
    · rintro ⟨n, ⟨parts, hne, hparts, -⟩, -, -⟩
      exact absurd (hparts.eq_nil_iff.mp ht) hne
  · rw [h]
    simp only [Option.map_eq_some_iff, partsMillis?_eq_some areTold_units]
    constructor
    · rintro ⟨n, ⟨parts, hparts, hn, hlt⟩, rfl⟩
      have hne : parts ≠ [] := fun hnil => ht (hparts.eq_nil_iff.mpr hnil)
      exact ⟨n, ⟨parts, hne, hparts, hn⟩, hlt, rfl⟩
    · rintro ⟨n, ⟨parts, -, hparts, hn⟩, hlt, rfl⟩
      exact ⟨n, ⟨parts, hparts, hn, hlt⟩, rfl⟩

/-- A text that spells a number of milliseconds means a span of as many, if they are not too
many. -/
theorem parse?_of_spells (h : Literal.parse? (Text.trim input) = none) {n : Nat}
    (hn : Spells (Text.trim input) n) :
    parse? input = if n < 2 ^ 64 then some (ofMillis n) else none := by
  split_ifs with hlt
  · exact (parse?_of_not_literal h).mpr ⟨n, hn, hlt, rfl⟩
  · rw [Option.eq_none_iff_forall_ne_some]
    intro span hspan
    obtain ⟨m, hm, hbound, -⟩ := (parse?_of_not_literal h).mp hspan
    rw [hn.unique hm] at hlt
    exact hlt hbound

theorem parse?_of_not_spells (h : Literal.parse? (Text.trim input) = none)
    (hn : ¬ ∃ n, Spells (Text.trim input) n) : parse? input = none := by
  rw [Option.eq_none_iff_forall_ne_some]
  intro span hspan
  obtain ⟨n, hspells, -, -⟩ := (parse?_of_not_literal h).mp hspan
  exact hn ⟨n, hspells⟩

theorem step?_of_parse? {span : Span} (h : parse? input = some span) :
    step? input = if span.nanos = 0 then none else some (Text.trim input) := by
  simp [step?, h]

theorem step?_of_no_parse? (h : parse? input = none) : step? input = none := by
  simp [step?, h]

end Spans

end Span

/-! ### Checks -/

section Checks

variable {input : Text}

theorem checkSpan_of_parse? {span : Span} (h : Span.parse? input = some span) :
    checkSpan input = .ok span := by
  rw [checkSpan, h]

theorem checkStep_of_parse? {span : Span} (h : Span.parse? input = some span) :
    checkStep input =
      if 0 < span.nanos then .ok (Text.trim input) else .error (.invalidDuration input) := by
  rw [checkStep, Span.step?_of_parse? h]
  by_cases hzero : span.nanos = 0
  · rw [if_pos hzero, if_neg (by omega)]
  · rw [if_neg hzero, if_pos (by omega)]

theorem check_of_no_parse? (h : Span.parse? input = none) :
    checkSpan input = .error (.invalidDuration input) ∧
      checkStep input = .error (.invalidDuration input) := by
  rw [checkSpan, checkStep, Span.step?_of_no_parse? h, h]
  exact ⟨rfl, rfl⟩

/-- **A text that is no number means a span exactly if it is made of parts.**  Some digits and a
unit make a part; the units are those from years to milliseconds in this order, each at most once.
The span has as many milliseconds as the parts come to, which are fewer than `2 ^ 64`; a step has
one at least.  Every other text is refused, and the error names it as it was given. -/
theorem span_iff_made_of_parts (h : Literal.parse? (Text.trim input) = none) :
    (∀ n, Span.Spells (Text.trim input) n →
      checkSpan input = (if n < 2 ^ 64 then .ok (Span.ofMillis n)
        else .error (.invalidDuration input)) ∧
      checkStep input = if 0 < n ∧ n < 2 ^ 64 then .ok (Text.trim input)
        else .error (.invalidDuration input)) ∧
    ((¬ ∃ n, Span.Spells (Text.trim input) n) →
      checkSpan input = .error (.invalidDuration input) ∧
      checkStep input = .error (.invalidDuration input)) := by
  constructor
  · intro n hn
    have hparse := Span.parse?_of_spells h hn
    by_cases hlt : n < 2 ^ 64
    · have hnanos : 0 < (Span.ofMillis n).nanos ↔ 0 < n ∧ n < 2 ^ 64 := by
        rw [Span.ofMillis, and_iff_left hlt]
        show 0 < n * 1000000 ↔ 0 < n
        omega
      rw [if_pos hlt] at hparse ⊢
      refine ⟨checkSpan_of_parse? hparse, ?_⟩
      rw [checkStep_of_parse? hparse]
      simp only [hnanos]
    · have hboth : ¬ (0 < n ∧ n < 2 ^ 64) := fun h => hlt h.2
      rw [if_neg hlt] at hparse ⊢
      rw [if_neg hboth]
      exact check_of_no_parse? hparse
  · intro hn
    exact check_of_no_parse? (Span.parse?_of_not_spells h hn)

end Checks

/-- An hour and a half, with a zero in front and blanks around. -/
theorem span_iff_made_of_parts_of_hours :
    checkSpan " 1h030m\n".toList = .ok (Span.ofMillis 5400000) ∧
      checkStep " 1h030m\n".toList = .ok "1h030m".toList := by
  have hliteral : Literal.parse? (Text.trim " 1h030m\n".toList) = none := by decide +kernel
  let hour : Span.Part :=
    ⟨"1".toList, ⟨"h".toList, 3600000⟩, by decide, List.all_eq_true.mp rfl⟩
  let minutes : Span.Part :=
    ⟨"030".toList, ⟨"m".toList, 60000⟩, by decide, List.all_eq_true.mp rfl⟩
  have hsublist : [hour.unit, minutes.unit].Sublist Span.units :=
    .cons _ (.cons _ (.cons _ (.cons_cons _ (.cons_cons _ (List.nil_sublist _)))))
  have hmillis : Span.totalMillis [hour, minutes] = 5400000 := by decide +kernel
  have hspells : Span.Spells (Text.trim " 1h030m\n".toList) 5400000 :=
    ⟨[hour, minutes], by simp, ⟨hsublist, by decide +kernel⟩, hmillis⟩
  exact (span_iff_made_of_parts hliteral).1 5400000 hspells

end MetricsBridge
