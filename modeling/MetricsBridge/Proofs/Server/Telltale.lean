import Mathlib
import MetricsBridge.Proofs.Server.Backtracking
import MetricsBridge.Proofs.Server.Redaction

/-!
# What gives a match away

The patterns are applied one after the other, and each writes names, signs and masks into the text.
None of that may bring about what an earlier pattern would have found.  For a pattern there is a
kind of text that gives a match without a mask away (`Betrays`).  `Shields` says what a replacement
must not do to such texts, and by induction on `Pattern.Rewrites` none of them comes up
(`Telltale.exists_of_rewrites`).  A pattern leaves no text of its own kind behind, and the patterns
after it bring none back (`Betrays.absent_redact`).
-/
namespace MetricsBridge.Redaction

open Run

/-! ### Texts without case -/

/-- The character without its case, and a space for any blank. -/
def blur (c : Char) : Char :=
  if isBlank c then ' ' else foldLetter c

theorem blur_of_letter {c : Char} (h : isLetter c = true) : blur c = foldLetter c := by
  rw [blur, isBlank_of_letter h]
  rfl

theorem blur_of_blank {c : Char} (h : isBlank c = true) : blur c = ' ' :=
  if_pos h

theorem map_blur_of_letters {t : Text} (h : ∀ c ∈ t, isLetter c = true) : t.map blur = lower t :=
  List.map_congr_left fun c hc => blur_of_letter (h c hc)

namespace Run

variable {r : Run} {runs : List Run} {x : Text} {c : Char}

/-- The run cares for neither the case of letters nor the kind of blanks. -/
def Neutral (r : Run) : Prop :=
  ∀ c, r.accepts (blur c) = r.accepts c

/-- A class is neutral that has all letters or none, and all blanks or none. -/
theorem neutral_of_class (letters blanks : Bool)
    (hletters : ∀ c, isLetter c = true → r.accepts c = letters)
    (hblanks : ∀ c, isBlank c = true → r.accepts c = blanks) : r.Neutral := by
  intro c
  by_cases hb : isBlank c = true
  · rw [blur_of_blank hb, hblanks c hb, hblanks ' ' rfl]
  by_cases hl : isLetter c = true
  · rw [blur_of_letter hl, hletters c hl, hletters _ ((isLetter_foldLetter c).trans hl)]
  · rw [blur, if_neg hb, foldLetter_of_not_letter (by simpa using hl)]

theorem neutral_marks {a b : Char} {least : Nat} {most : Option Nat}
    (ha : isLetter a = false ∧ isBlank a = false) (hb : isLetter b = false ∧ isBlank b = false) :
    (⟨fun c => c == a || c == b, least, most⟩ : Run).Neutral := by
  refine neutral_of_class false false ?_ ?_
  · intro c hc
    simp [ne_of_letter hc ha.1, ne_of_letter hc hb.1]
  · intro c hc
    simp [ne_of_blank hc ha.2, ne_of_blank hc hb.2]

theorem neutral_blanks {least : Nat} : (many least isBlank).Neutral :=
  neutral_of_class false true (fun _ => isBlank_of_letter) fun _ hc => hc

theorem neutral_word {w : String} (hw : w.toList.all isLetter = true) :
    ∀ r ∈ word w, r.Neutral := by
  intro r hr
  obtain ⟨a, ha, rfl⟩ := List.mem_map.mp hr
  have hletter : isLetter (foldLetter a) = true :=
    (isLetter_foldLetter a).trans (List.all_eq_true.mp hw a ha)
  intro c
  show sameLetter a (blur c) = sameLetter a c
  by_cases hb : isBlank c = true
  · have hnot : isLetter c = false := by
      by_contra h
      simp [isBlank_of_letter (by simpa using h : isLetter c = true)] at hb
    have hfalse : ∀ mark, isLetter mark = false → sameLetter a mark = false := by
      intro mark hm
      rw [sameLetter, beq_eq_false_iff_ne, foldLetter_of_not_letter hm]
      exact ne_of_letter hletter hm
    rw [blur_of_blank hb, hfalse c hnot, hfalse ' ' rfl]
  · rw [blur, if_neg hb, sameLetter, sameLetter, foldLetter_foldLetter]

theorem fits_blur (hr : r.Neutral) : r.Fits (x.map blur) ↔ r.Fits x := by
  simp [fits_iff, hr _]

/-- **Runs that care for no case read a text in any case.** -/
theorem reads_blur (hr : ∀ r ∈ runs, r.Neutral) : Reads runs (x.map blur) ↔ Reads runs x := by
  induction runs generalizing x with
  | nil => exact List.map_eq_nil_iff
  | cons r runs ih =>
    rw [List.forall_mem_cons] at hr
    constructor
    · rintro ⟨_, _, hx, ha, hb⟩
      obtain ⟨a, b, rfl, rfl, rfl⟩ := List.map_eq_append_iff.mp hx
      exact ⟨a, b, rfl, (fits_blur hr.1).mp ha, (ih hr.2).mp hb⟩
    · rintro ⟨a, b, rfl, ha, hb⟩
      exact ⟨_, _, List.map_append, (fits_blur hr.1).mpr ha, (ih hr.2).mpr hb⟩

end Run

/-! ### Texts that give a match away -/

/-- The words with which a match begins, in lower case. -/
def openings : List Text :=
  ["http", "api", "password", "passwd", "pwd", "secret", "token", "bearer", "basic"].map
    String.toList

/-- Texts of this kind give away a match without a mask.  They begin with one of the words, are
longer than what is written in front of a mask, hold no mask, and do not end inside one that has
begun in them.  At their end they care for neither the case of letters nor the kind of blanks. -/
structure Telltale (K : Text → Prop) : Prop where
  opening : ∀ w, K w → ∃ word ∈ openings, word <+: lower w
  long : ∀ w, K w → 10 ≤ w.length
  bare : ∀ w, K w → ¬ mask <:+: w
  last : ∀ w c, K (w ++ [c]) → c ≠ '=' ∧ (c ∈ mask → '*' ∉ w ++ [c])
  blurred : ∀ k v v', K (k ++ v) → (∀ c ∈ v, isLetter c = true ∨ isBlank c = true) →
    v'.map blur = v.map blur → K (k ++ v')

/-- Where `r` replaces `m`, no text of the kind comes up: none begins in `r`, and one that reaches
into `r` reached into `m` as well. -/
structure Shields (K : Text → Prop) (m r : Text) : Prop where
  inside : ∀ w x b, K w → x ≠ [] → x <:+ r → ¬ w <+: x ++ b
  across : ∀ k v b, k ≠ [] → K (k ++ v) → v <+: r ++ b → ∃ v', v' <+: m ∧ K (k ++ v')

/-- What is written in front of a mask, in lower case. -/
def fronts : List Text :=
  tellingNames.map (· ++ ['=']) ++ provingWords.map fun title => lower title ++ [' ']

/-- No match begins inside of what is written. -/
theorem not_opening_of_fronts : ∀ front ∈ fronts, ∀ word ∈ openings,
    ∀ x ∈ (front ++ lower mask).tail.tails, x ≠ [] → ¬ word <+: x ∧ ¬ x <+: word := by
  decide +kernel

theorem length_of_fronts : ∀ front ∈ fronts, front.length < 10 := by
  decide

theorem star_of_prefix_mask {x : Text} (hx : x <+: mask) (hne : x ≠ []) : '*' ∈ x := by
  obtain ⟨c, x, rfl⟩ := List.exists_cons_of_ne_nil hne
  obtain ⟨rfl, -⟩ := List.cons_prefix_cons.mp (show c :: x <+: '*' :: mask.tail from hx)
  exact List.mem_cons_self

namespace Telltale

variable {K : Text → Prop} {p : Pattern} {t u w k v m r front b : Text}

/-- A text of the kind that reaches into what is written ends in front of the mask. -/
theorem prefix_front (hK : Telltale K) (hw : K (k ++ v)) (hv : v <+: front ++ mask ++ b) :
    v <+: front := by
  rw [List.append_assoc] at hv
  rcases List.prefix_or_prefix_of_prefix hv (List.prefix_append _ _) with h | ⟨x, rfl⟩
  · exact h
  rcases List.eq_nil_or_concat' x with rfl | ⟨x, c, rfl⟩
  · simp
  exfalso
  have hx : x ++ [c] <+: mask ++ b := (List.prefix_append_right_inj front).mp hv
  rcases List.prefix_or_prefix_of_prefix hx (List.prefix_append _ _) with hx | hx
  · have hstar : '*' ∈ x ++ [c] := star_of_prefix_mask hx (by simp)
    have hlast := (hK.last (k ++ (front ++ x)) c (by simpa using hw)).2 (hx.mem (by simp))
    rw [List.append_assoc, List.append_assoc] at hlast
    exact hlast (List.mem_append_right k (List.mem_append_right front hstar))
  · exact hK.bare _ hw (hx.isInfix.trans ⟨k ++ front, [], by simp⟩)

/-- No text of the kind begins in what is written with a mask. -/
theorem not_prefix_of_front (hK : Telltale K) (hfront : lower front ∈ fronts) (hw : K w) {x : Text}
    (hne : x ≠ []) (hx : x <:+ front ++ mask) : ¬ w <+: x ++ b := by
  intro h
  have hlow : lower x <:+ lower front ++ lower mask := by
    rw [← lower_append]
    exact hx.map foldLetter
  by_cases hall : x = front ++ mask
  · have hshort : w <+: front := hK.prefix_front (k := []) hw (hall ▸ h)
    have hlen := length_of_fronts _ hfront
    rw [length_lower] at hlen
    have hlong := hK.long w hw
    have hle := hshort.length_le
    omega
  · have htail : lower x <:+ (lower front ++ lower mask).tail := by
      obtain ⟨c, y, hy⟩ : ∃ c y, front ++ mask = c :: y :=
        List.exists_cons_of_ne_nil (List.append_ne_nil_of_right_ne_nil front (by decide))
      rw [hy] at hall hx
      have hxy : x <:+ y := (List.suffix_cons_iff.mp hx).resolve_left hall
      rw [← lower_append, hy]
      exact hxy.map foldLetter
    obtain ⟨word, hword, hopen⟩ := hK.opening w hw
    have hboth := not_opening_of_fronts _ hfront word hword (lower x)
      ((List.mem_tails _ _).mpr htail) (by simpa [lower] using hne)
    have hpre : word <+: lower x ++ lower b := by
      rw [← lower_append]
      exact hopen.trans (h.map foldLetter)
    rcases List.prefix_or_prefix_of_prefix hpre (List.prefix_append _ _) with h | h
    · exact hboth.1 h
    · exact hboth.2 h

theorem isLetter_of_titles : ∀ title ∈ provingWords, title.all isLetter = true := by
  decide

/-- With a mask behind `front`, only what ends in `front` matters. -/
theorem shields_of_front (hK : Telltale K) (hfront : lower front ∈ fronts)
    (h : ∀ k v, K (k ++ v) → v <+: front → ∃ v', v' <+: m ∧ K (k ++ v')) :
    Shields K m (front ++ mask) where
  inside _ _ _ hw hne hx := hK.not_prefix_of_front hfront hw hne hx
  across k v _ _ hw hv := h k v hw (hK.prefix_front hw hv)

theorem shields_value (hK : Telltale K) {name value : Text} (hname : lower name ∈ tellingNames) :
    Shields K (name ++ value) (name ++ '=' :: mask) := by
  have hsplit : name ++ '=' :: mask = (name ++ ['=']) ++ mask := by simp
  have hfront : lower (name ++ ['=']) ∈ fronts := by
    rw [lower_append]
    exact List.mem_append_left _ (List.mem_map_of_mem hname)
  rw [hsplit]
  refine hK.shields_of_front hfront fun k v hw hv => ?_
  rcases List.prefix_concat_iff.mp hv with rfl | hv
  · exact absurd rfl (hK.last (k ++ name) '=' (by simpa using hw)).1
  · exact ⟨v, hv.trans (List.prefix_append _ _), hw⟩

theorem shields_proof (hK : Telltale K) {word value title : Text} {blank : Char}
    (htitle : title ∈ provingWords) (hword : lower word = lower title)
    (hblank : isBlank blank = true) :
    Shields K (word ++ blank :: value) (title ++ ' ' :: mask) := by
  have hsplit : title ++ ' ' :: mask = (title ++ [' ']) ++ mask := by simp
  have hfront : lower (title ++ [' ']) ∈ fronts := by
    rw [lower_append]
    exact List.mem_append_right _ (List.mem_map_of_mem htitle)
  have hletters := List.all_eq_true.mp (isLetter_of_titles title htitle)
  rw [hsplit]
  refine hK.shields_of_front hfront fun k v hw hv => ?_
  obtain ⟨z, hz⟩ := hv
  -- the word stands where its title is written, and the blank where the space is
  have hblur : (word ++ [blank]).map blur = v.map blur ++ z.map blur := by
    have hspace : blur ' ' = ' ' := rfl
    rw [← List.map_append, hz, List.map_append, List.map_append, map_blur_of_letters hletters,
      map_blur_of_letters (isLetter_of_lower_eq hword hletters), hword]
    simp [blur_of_blank hblank, hspace]
  obtain ⟨v', z', hwz, hv', -⟩ := List.map_eq_append_iff.mp hblur
  have hpre : v' <+: word ++ blank :: value := by
    have hassoc : word ++ blank :: value = (word ++ [blank]) ++ value := by simp
    rw [hassoc, hwz, List.append_assoc]
    exact List.prefix_append _ _
  refine ⟨v', hpre, hK.blurred k v v' hw ?_ hv'⟩
  intro c hc
  have hmem : c ∈ title ++ [' '] := hz ▸ List.mem_append_left z hc
  rcases List.mem_append.mp hmem with hc | hc
  · exact .inl (hletters c hc)
  · exact .inr (List.mem_singleton.mp hc ▸ rfl)

/-- **What a mask replaces is no loss**: no text of the kind comes up where it is put. -/
theorem shields (hK : Telltale K) (h : Masks m r) : Shields K m r := by
  cases h with
  | value hname => exact hK.shields_value hname
  | proof htitle hword hblank => exact hK.shields_proof htitle hword hblank

/-! ### Following a replacement -/

/-- **Replacing brings no text of the kind about**: what reaches into the new text reached into the
old one, and what occurs in the new text comes from a place of the old one at which the pattern
found nothing. -/
theorem exists_of_rewrites (hK : Telltale K)
    (hs : ∀ m r z, p.match? (m ++ z) = some (r, m.length) → Shields K m r) (h : p.Rewrites t u) :
    (∀ k v, k ≠ [] → K (k ++ v) → v <+: u ++ [' '] → ∃ v', v' <+: t ++ [' '] ∧ K (k ++ v')) ∧
      ∀ w, K w → w <:+: u ++ [' '] →
        ∃ x, x <:+ t ∧ p.match? x = none ∧ ∃ w', K w' ∧ w' <+: x ++ [' '] := by
  induction h with
  | done =>
    refine ⟨fun k v _ hw hv => ⟨v, hv, hw⟩, fun w hw h => ?_⟩
    have hlong := hK.long w hw
    have hle := h.length_le
    simp at hle
    omega
  | @keep c t u hnone _ ih =>
    have hacross : ∀ k v, k ≠ [] → K (k ++ v) → v <+: c :: u ++ [' '] →
        ∃ v', v' <+: c :: t ++ [' '] ∧ K (k ++ v') := by
      intro k v hne hw hv
      rcases List.prefix_cons_iff.mp hv with rfl | ⟨v, rfl, hrest⟩
      · exact ⟨[], List.nil_prefix, hw⟩
      · obtain ⟨v', hv', hw'⟩ := ih.1 (k ++ [c]) v (by simp) (by simpa using hw) hrest
        exact ⟨c :: v', List.cons_prefix_cons.mpr ⟨rfl, hv'⟩, by simpa using hw'⟩
    refine ⟨hacross, fun w hw h => ?_⟩
    rcases List.infix_cons_iff.mp h with h | h
    · rcases List.prefix_cons_iff.mp h with rfl | ⟨v, rfl, hrest⟩
      · exact absurd (hK.long [] hw) (by simp)
      · obtain ⟨v', hv', hw'⟩ := ih.1 [c] v (by simp) hw hrest
        exact ⟨c :: t, List.suffix_rfl, hnone, c :: v', hw', List.cons_prefix_cons.mpr ⟨rfl, hv'⟩⟩
    · obtain ⟨x, hx, hfound⟩ := ih.2 w hw h
      exact ⟨x, hx.trans (List.suffix_cons c t), hfound⟩
  | @hide m r t u hsome _ _ ih =>
    have hshields := hs m r t hsome
    refine ⟨fun k v hne hw hv => ?_, fun w hw h => ?_⟩
    · rw [List.append_assoc] at hv
      obtain ⟨v', hv', hw'⟩ := hshields.across k v _ hne hw hv
      exact ⟨v', hv'.trans (by simp), hw'⟩
    · rw [List.append_assoc] at h
      rcases Text.infix_append_start h with h | ⟨x, hne, hx, h⟩
      · obtain ⟨x, hx, hfound⟩ := ih.2 w hw h
        exact ⟨x, hx.trans (List.suffix_append m t), hfound⟩
      · exact absurd h (hshields.inside w x _ hw hne hx)

end Telltale

/-! ### What each pattern leaves behind -/

section Betrays

variable {K : Text → Prop} {p : Pattern}

/-- The kind of text by which every match of the pattern is known that has no mask. -/
structure Betrays (p : Pattern) (K : Text → Prop) : Prop extends Telltale K where
  found : ∀ w x, K w → w <+: x ++ [' '] → p.match? x ≠ none
  shields : ∀ m r z, p.match? (m ++ z) = some (r, m.length) → Shields K m r
  shown : ∀ m b, p.Finds m b → ¬ mask <:+: m → ∃ w, K w ∧ w <+: m ++ b ++ [' ']

theorem shields_of_match? (hp : p ∈ patterns.tail) (hK : Telltale K) (m r z : Text)
    (h : p.match? (m ++ z) = some (r, m.length)) : Shields K m r := by
  obtain ⟨m', z', heq, hlen, hmasks⟩ := masks_of_match? hp h
  obtain ⟨rfl, -⟩ := List.append_inj heq hlen
  exact hK.shields hmasks

/-- The pattern leaves no text of its kind. -/
theorem Betrays.absent_replaceAll (hK : Betrays p K) (hp : p ∈ patterns) (t : Text) {w : Text}
    (hw : K w) : ¬ w <:+: p.replaceAll t ++ [' '] := by
  intro h
  obtain ⟨x, -, hnone, w', hw', hpre⟩ :=
    (hK.exists_of_rewrites hK.shields (Pattern.rewrites_replaceAll hp t)).2 w hw h
  exact hK.found w' x hw' hpre hnone

/-- A pattern behind the first brings no text of any kind back. -/
theorem Telltale.absent_of_absent (hK : Telltale K) (hp : p ∈ patterns.tail) {t : Text}
    (ht : ∀ w, K w → ¬ w <:+: t ++ [' ']) : ∀ w, K w → ¬ w <:+: p.replaceAll t ++ [' '] := by
  intro w hw h
  have hrewrites := Pattern.rewrites_replaceAll (List.mem_of_mem_tail hp) t
  obtain ⟨x, ⟨z, rfl⟩, -, w', hw', hpre⟩ :=
    (hK.exists_of_rewrites (shields_of_match? hp hK) hrewrites).2 w hw h
  exact ht w' hw' (hpre.isInfix.trans ⟨z, [], by simp⟩)

/-- **Redaction leaves no text of the kind that betrays a pattern.** -/
theorem Betrays.absent_redact (hK : Betrays p K) (hp : p ∈ patterns) (t : Text) {w : Text}
    (hw : K w) : ¬ w <:+: redact t ++ [' '] := by
  obtain ⟨before, after, hsplit⟩ := List.append_of_mem hp
  have hafter : ∀ q ∈ after, q ∈ patterns.tail := by
    intro q hq
    rw [hsplit]
    cases before with
    | nil => exact hq
    | cons _ before => exact List.mem_append_right before (List.mem_cons_of_mem p hq)
  have hfold : ∀ (qs : List Pattern) (t : Text), (∀ q ∈ qs, q ∈ patterns.tail) →
      (∀ w, K w → ¬ w <:+: t ++ [' ']) →
      ∀ w, K w → ¬ w <:+: qs.foldl (fun t q => q.replaceAll t) t ++ [' '] := by
    intro qs
    induction qs with
    | nil => exact fun t _ ht => ht
    | cons q qs ih =>
      intro t hqs ht
      rw [List.forall_mem_cons] at hqs
      exact ih (q.replaceAll t) hqs.2 (hK.absent_of_absent hqs.1 ht)
  rw [redact, hsplit, List.foldl_append, List.foldl_cons]
  exact hfold after _ hafter (fun w hw => hK.absent_replaceAll hp _ hw) w hw

end Betrays

end MetricsBridge.Redaction
