import Mathlib
import MetricsBridge.Proofs.Server.Telltale

/-!
# Redaction is complete

Three kinds of text give matches away.  A login of the web without a mask is one that the pattern of
addresses finds.  A password is given away by the start of a match with the character that ends it,
because what is found behind its name may hold a mask.  For the other patterns no start of a match
holds a star, so that it is enough by itself, and no match at all is left.  Together: every match
that is left in a redacted text is a mask (`redaction_is_complete`).
-/
namespace MetricsBridge.Redaction

open Run

/-! ### Logins -/

theorem eq_of_prefix_append {x m z : Text} (h : x <+: m ++ z) (hlen : x.length = m.length) :
    x = m :=
  (List.prefix_of_prefix_length_le h (List.prefix_append m z) hlen.le).eq_of_length hlen

/-- A login of the web without a mask. -/
def BareLogin (w : Text) : Prop :=
  ∃ l : WebLogin, w = l.text ∧ ¬ mask <:+: w

namespace WebLogin

variable (l : WebLogin)

theorem text_eq_concat : l.text = (l.scheme ++ "://".toList ++ l.pair) ++ ['@'] := rfl

theorem opening_text : "http".toList <+: lower l.text := by
  have hscheme : "http".toList <+: lower l.scheme := by
    rcases l.isWeb with h | h
    · rw [h]
    · rw [h]
      decide
  rw [text, List.append_assoc, List.append_assoc, lower_append]
  exact hscheme.trans (List.prefix_append _ _)

theorem length_text : 10 ≤ l.text.length := by
  have hscheme : 4 ≤ l.scheme.length := by
    rw [← length_lower]
    rcases l.isWeb with h | h
    · rw [h]
      decide
    · rw [h]
      decide
  have huser := List.length_pos_iff.mpr l.user_ne
  have hpassword := List.length_pos_iff.mpr l.password_ne
  simp [text, pair]
  omega

/-- Two logins do not overlap. -/
theorem text_of_across {k v b : Text} (l' : WebLogin) (hk : k ≠ []) (hkv : k ++ v = l'.text)
    (hv : v <+: l.masked ++ b) : v <+: l.text := by
  have hmasked : l.masked ++ b = l.scheme ++ "://".toList ++ (mask ++ '@' :: b) := by
    simp [masked]
  rw [hmasked] at hv
  rcases List.prefix_or_prefix_of_prefix hv (List.prefix_append _ _) with h | ⟨z, rfl⟩
  · exact h.trans ⟨l.pair ++ ['@'], by simp [text]⟩
  · have hinside : l'.text <+: k :=
      (l'.text_prefix_append l.isWeb hk).mp (by rw [hkv])
    have hle := hinside.length_le
    rw [← hkv] at hle
    simp at hle

end WebLogin

theorem telltale_bareLogin : Telltale BareLogin where
  opening := by
    rintro _ ⟨l, rfl, -⟩
    exact ⟨_, by simp [openings], l.opening_text⟩
  long := by
    rintro _ ⟨l, rfl, -⟩
    exact l.length_text
  bare := by
    rintro w ⟨-, -, h⟩
    exact h
  last := by
    rintro w c ⟨l, hl, -⟩
    rw [l.text_eq_concat] at hl
    obtain rfl : c = '@' := by simpa using (List.append_inj' hl rfl).2
    exact ⟨by decide, fun h => absurd h (by decide)⟩
  blurred := by
    rintro k v v' ⟨l, hl, hbare⟩ hv hblur
    rcases List.eq_nil_or_concat' v with rfl | ⟨v, c, rfl⟩
    · obtain rfl : v' = [] := List.map_eq_nil_iff.mp hblur
      exact ⟨l, hl, hbare⟩
    · rw [l.text_eq_concat, ← List.append_assoc] at hl
      obtain rfl : c = '@' := by simpa using (List.append_inj' hl rfl).2
      exact absurd (hv '@' (by simp)) (by decide)

theorem betrays_address : Betrays address BareLogin where
  toTelltale := telltale_bareLogin
  found := by
    rintro _ x ⟨l, rfl, -⟩ h hnone
    rcases List.prefix_concat_iff.mp h with h | h
    · rw [l.text_eq_concat] at h
      exact absurd (List.append_inj' h rfl).2 (by decide)
    · rw [address_match?.mpr ⟨l, h, rfl, rfl⟩] at hnone
      cases hnone
  shields := by
    intro m r z h
    obtain ⟨l, hpre, rfl, hlen⟩ := address_match?.mp h
    obtain rfl : l.text = m := eq_of_prefix_append hpre hlen.symm
    constructor
    · rintro _ x b ⟨l', rfl, -⟩ hne hx hpre
      have hnone := address_masked l hne hx (b := b)
      rw [address_match?.mpr ⟨l', hpre, rfl, rfl⟩] at hnone
      cases hnone
    · rintro k v b hk ⟨l', hl, hbare⟩ hv
      exact ⟨v, l.text_of_across l' hk hl hv, l', hl, hbare⟩
  shown := by
    intro m b h hmask
    obtain ⟨r, hmatch⟩ := (Pattern.finds_iff (by simp [patterns])).mp h
    obtain ⟨l, hpre, -, hlen⟩ := address_match?.mp hmatch
    obtain rfl : l.text = m := eq_of_prefix_append hpre hlen.symm
    exact ⟨l.text, ⟨l, rfl, hmask⟩, by simp⟩

/-! ### Starts of matches -/

/-- A start of a match: a name, what leads to the value, and so many characters of the value. -/
def Spells (p : Pattern) (lead : List Run) (least : Nat) (accepts : Char → Bool) (w : Text) :
    Prop :=
  ∃ name ∈ p.names, Reads (name ++ (lead ++ [many least accepts])) w

/-- The form of the patterns behind the first: a name that is or begins with one of the words, what
leads to the value, the value, of at least so many characters of a class, and runs that may be
missing. -/
structure Form (p : Pattern) (lead : List Run) (least : Nat) (accepts : Char → Bool)
    (ends : List Run) : Prop where
  value : p.value = lead ++ [many least accepts] ++ ends
  optional : ∀ s ∈ ends, s.least = 0
  opening : ∀ name ∈ p.names, ∃ (word : String) (more : List Run),
    lower word.toList ∈ openings ∧ name = Run.word word ++ more
  long : ∀ name ∈ p.names, 10 ≤ ((name ++ (lead ++ [many least accepts])).map Run.least).sum
  neutral : ∀ name ∈ p.names, ∀ r ∈ name ++ (lead ++ [many least accepts]), r.Neutral
  pos : 0 < least
  space : accepts ' ' = false

namespace Form

variable {p : Pattern} {lead ends : List Run} {least : Nat} {accepts : Char → Bool} {t w x : Text}
  {c : Char}

theorem exists_opening (hf : Form p lead least accepts ends)
    (h : Spells p lead least accepts w) : ∃ word ∈ openings, word <+: lower w := by
  obtain ⟨name, hname, hreads⟩ := h
  obtain ⟨word, more, hword, rfl⟩ := hf.opening name hname
  rw [List.append_assoc] at hreads
  obtain ⟨y, z, rfl, hy, -⟩ := reads_append.mp hreads
  refine ⟨_, hword, ?_⟩
  rw [← lower_of_reads_word hy, lower_append]
  exact List.prefix_append _ _

theorem length_le (hf : Form p lead least accepts ends)
    (h : Spells p lead least accepts w) : 10 ≤ w.length := by
  obtain ⟨name, hname, hreads⟩ := h
  exact (hf.long name hname).trans hreads.sum_le

theorem spells_congr (hf : Form p lead least accepts ends) (hx : x.map blur = w.map blur)
    (h : Spells p lead least accepts w) :
    Spells p lead least accepts x := by
  obtain ⟨name, hname, hreads⟩ := h
  rw [← reads_blur (hf.neutral name hname), ← hx, reads_blur (hf.neutral name hname)] at hreads
  exact ⟨name, hname, hreads⟩

/-- What is spelled is found. -/
theorem match?_ne_none (hf : Form p lead least accepts ends) (hp : p ∈ patterns)
    (h : Spells p lead least accepts w) (hw : w <+: x) : p.match? x ≠ none := by
  obtain ⟨name, hname, hreads⟩ := h
  obtain ⟨z, rfl⟩ := hw
  refine Pattern.match?_ne_none_of_reads hp hname ?_ z
  rw [hf.value, ← List.append_assoc]
  exact reads_append.mpr ⟨w, [], by simp, hreads, reads_nil hf.optional⟩

/-- What is found is spelled. -/
theorem exists_spells (hf : Form p lead least accepts ends) (h : p.ways t ≠ []) :
    ∃ w, Spells p lead least accepts w ∧ w <+: t := by
  obtain ⟨⟨x, rest⟩, hmem⟩ := List.exists_mem_of_ne_nil _ h
  obtain ⟨rfl, name, hname, hreads⟩ := Pattern.mem_ways.mp hmem
  rw [hf.value, ← List.append_assoc] at hreads
  obtain ⟨w, z, rfl, hw, -⟩ := reads_append.mp hreads
  exact ⟨w, ⟨name, hname, hw⟩, by simp⟩

theorem accepts_last (hf : Form p lead least accepts ends)
    (h : Spells p lead least accepts (w ++ [c])) : accepts c = true := by
  obtain ⟨name, -, hreads⟩ := h
  rw [← List.append_assoc] at hreads
  exact hreads.accepts_last hf.pos

end Form

/-! ### The forms of the patterns -/

/-- The name is or begins with one of the words, in whatever case. -/
def IsName (name : List Run) : Prop :=
  (∃ (word : String) (more : List Run), lower word.toList ∈ openings ∧
    name = Run.word word ++ more) ∧ ∀ r ∈ name, r.Neutral

theorem isName_word {w : String} (hopening : lower w.toList ∈ openings)
    (hletters : w.toList.all isLetter = true) : IsName (word w) :=
  ⟨⟨w, [], hopening, (List.append_nil _).symm⟩, neutral_word hletters⟩

theorem isName_words (words : List String)
    (h : ∀ w ∈ words, lower w.toList ∈ openings ∧ w.toList.all isLetter = true) :
    ∀ name ∈ words.map word, IsName name := by
  intro name hname
  obtain ⟨w, hw, rfl⟩ := List.mem_map.mp hname
  exact isName_word (h w hw).1 (h w hw).2

theorem isName_apiKey : ∀ name ∈ apiKey.names, IsName name := by
  intro name hname
  obtain rfl := List.mem_singleton.mp hname
  refine ⟨⟨"api", _, by decide, List.append_assoc _ _ _⟩, ?_⟩
  intro r hr
  rw [List.mem_append, List.mem_append] at hr
  rcases hr with (hr | hr) | hr
  · exact neutral_word (by decide) r hr
  · obtain rfl := List.mem_singleton.mp hr
    exact neutral_marks (by decide) (by decide)
  · exact neutral_word (by decide) r hr

theorem neutral_assignment : ∀ r ∈ assignment ++ [quoteMark], r.Neutral := by
  intro r hr
  simp only [assignment, List.mem_append, List.mem_cons, List.not_mem_nil, or_false] at hr
  rcases hr with (rfl | rfl | rfl) | rfl
  · exact neutral_blanks
  · exact neutral_marks (by decide) (by decide)
  · exact neutral_blanks
  · exact neutral_marks (by decide) (by decide)

theorem form_of_names {p : Pattern} {lead ends : List Run} {least : Nat} {accepts : Char → Bool}
    (hvalue : p.value = lead ++ [many least accepts] ++ ends)
    (hoptional : ∀ s ∈ ends, s.least = 0) (hnames : ∀ name ∈ p.names, IsName name)
    (hlong : ∀ name ∈ p.names, 10 ≤ ((name ++ (lead ++ [many least accepts])).map Run.least).sum)
    (hlead : ∀ r ∈ lead, r.Neutral) (hpos : 0 < least)
    (hletters : ∀ c, isLetter c = true → accepts c = true)
    (hblanks : ∀ c, isBlank c = true → accepts c = false) : Form p lead least accepts ends where
  value := hvalue
  optional := hoptional
  opening name hname := (hnames name hname).1
  long := hlong
  neutral := by
    intro name hname r hr
    rw [List.mem_append, List.mem_append, List.mem_singleton] at hr
    rcases hr with hr | hr | rfl
    · exact (hnames name hname).2 r hr
    · exact hlead r hr
    · exact neutral_of_class true false hletters hblanks
  pos := hpos
  space := hblanks ' ' rfl

theorem isKeyChar_of_letter {c : Char} (h : isLetter c = true) : isKeyChar c = true := by
  simp [isKeyChar, isWordChar, h]

theorem form_apiKey : Form apiKey (assignment ++ [quoteMark]) 20 isKeyChar [quoteMark] :=
  form_of_names rfl (by decide) isName_apiKey (by decide) neutral_assignment (by decide)
    (fun _ => isKeyChar_of_letter) fun _ => isKeyChar_of_blank

theorem form_secret : Form secret (assignment ++ [quoteMark]) 20 isKeyChar [quoteMark] :=
  form_of_names rfl (by decide) (isName_words ["secret", "token"] (by decide)) (by decide)
    neutral_assignment (by decide) (fun _ => isKeyChar_of_letter) fun _ => isKeyChar_of_blank

theorem form_password : Form password (assignment ++ [quoteMark]) 8 inSecret [quoteMark] := by
  refine form_of_names rfl (by decide)
    (isName_words ["password", "passwd", "pwd"] (by decide)) (by decide) neutral_assignment
    (by decide) ?_ ?_
  · intro c hc
    have hsingle : c ≠ '\'' := ne_of_letter hc rfl
    have hdouble : c ≠ '"' := ne_of_letter hc rfl
    simp [inSecret, isBlank_of_letter hc, hsingle, hdouble]
  · exact fun _ => inSecret_of_blank

theorem form_bearer : Form bearer [many 1 isBlank] 20 inToken [] := by
  refine form_of_names rfl (by decide) (isName_words ["bearer"] (by decide)) (by decide)
    (by simpa using neutral_blanks) (by decide) ?_ fun _ => inToken_of_blank
  intro c hc
  simp [inToken, isKeyChar_of_letter hc]

theorem form_basic : Form basic [many 1 isBlank] 8 inBase64 [⟨(· == '='), 0, some 2⟩] := by
  refine form_of_names rfl (by decide) (isName_words ["basic"] (by decide)) (by decide)
    (by simpa using neutral_blanks) (by decide) ?_ fun _ => inBase64_of_blank
  intro c hc
  simp [inBase64, isWordChar, hc]

/-! ### Patterns that leave no match at all -/

section Spells

variable {p : Pattern} {lead ends : List Run} {least : Nat} {accepts : Char → Bool}

/-- Where no run takes a star, a start of a match is no part of a mask. -/
theorem telltale_spells (hf : Form p lead least accepts ends)
    (hstar : ∀ name ∈ p.names, ∀ r ∈ name ++ (lead ++ [many least accepts]), r.accepts '*' = false)
    (hequals : accepts '=' = false) : Telltale (Spells p lead least accepts) := by
  have hnone : ∀ w, Spells p lead least accepts w → '*' ∉ w := by
    rintro w ⟨name, hname, hreads⟩
    exact hreads.notMem (hstar name hname)
  refine ⟨fun w => hf.exists_opening, fun w => hf.length_le, fun w hw h => ?_, fun w c hw => ?_, ?_⟩
  · exact hnone w hw (h.mem (by decide))
  · refine ⟨?_, fun _ => hnone _ hw⟩
    rintro rfl
    have hlast := hf.accepts_last hw
    simp [hequals] at hlast
  · intro k v v' hw _ hblur
    exact hf.spells_congr (by rw [List.map_append, List.map_append, hblur]) hw

/-- Such a pattern betrays every match by its start. -/
theorem betrays_spells (hp : p ∈ patterns.tail) (hf : Form p lead least accepts ends)
    (hstar : ∀ name ∈ p.names, ∀ r ∈ name ++ (lead ++ [many least accepts]), r.accepts '*' = false)
    (hequals : accepts '=' = false) : Betrays p (Spells p lead least accepts) where
  toTelltale := telltale_spells hf hstar hequals
  found := by
    intro w x hw h
    rcases List.prefix_concat_iff.mp h with rfl | h
    · have hlast := hf.accepts_last hw
      simp [hf.space] at hlast
    · exact hf.match?_ne_none (List.mem_of_mem_tail hp) hw h
  shields := shields_of_match? hp (telltale_spells hf hstar hequals)
  shown := by
    intro m b h _
    have hne : p.ways (m ++ b) ≠ [] := by
      intro hnil
      rw [Pattern.Finds, hnil] at h
      cases h
    obtain ⟨w, hw, hpre⟩ := hf.exists_spells hne
    exact ⟨w, hw, hpre.trans (List.prefix_append _ _)⟩

end Spells

/-! ### Passwords -/

/-- A start of a match without a mask, and the character that ends the value. -/
def BareValue (p : Pattern) (lead : List Run) (least : Nat) (accepts : Char → Bool) (w : Text) :
    Prop :=
  ∃ h d, w = h ++ [d] ∧ Spells p lead least accepts h ∧ accepts d = false ∧ ¬ mask <:+: h

section BareValue

variable {p : Pattern} {lead ends : List Run} {least : Nat} {accepts : Char → Bool}

theorem notMem_of_blur {mark : Char} (hm : isLetter mark = false ∧ isBlank mark = false)
    {v v' : Text} (hv : ∀ c ∈ v, isLetter c = true ∨ isBlank c = true)
    (hblur : v'.map blur = v.map blur) : mark ∉ v' := by
  intro h
  have hmark : blur mark = mark := by
    rw [blur, if_neg (by simp [hm.2]), foldLetter_of_not_letter hm.1]
  have hmem : mark ∈ v.map blur := hblur ▸ hmark ▸ List.mem_map_of_mem h
  obtain ⟨c, hc, rfl⟩ := List.mem_map.mp hmem
  rcases hv c hc with hl | hb
  · rw [blur_of_letter hl, isLetter_foldLetter, hl] at hm
    exact absurd hm.1 (by simp)
  · rw [blur_of_blank hb] at hm
    exact absurd hm.2 (by decide)

/-- A mask does not end where no star is. -/
theorem infix_of_mask {a b : Text} (hb : '*' ∉ b) (h : mask <:+: a ++ b) : mask <:+: a :=
  Text.infix_append_of_last (w := "***REDACTED**".toList) hb h

theorem telltale_bareValue (hf : Form p lead least accepts ends)
    (hclass : ∀ c ∈ '=' :: mask, accepts c = true) : Telltale (BareValue p lead least accepts) where
  opening := by
    rintro _ ⟨h, d, rfl, hh, -⟩
    obtain ⟨word, hword, hopen⟩ := hf.exists_opening hh
    rw [lower_append]
    exact ⟨word, hword, hopen.trans (List.prefix_append _ _)⟩
  long := by
    rintro _ ⟨h, d, rfl, hh, -⟩
    have hlong := hf.length_le hh
    simp
    omega
  bare := by
    rintro _ ⟨h, d, rfl, -, hd, hbare⟩ hmask
    refine hbare (infix_of_mask ?_ hmask)
    intro hmem
    rw [← List.mem_singleton.mp hmem, hclass '*' (by decide)] at hd
    cases hd
  last := by
    rintro w c ⟨h, d, heq, -, hd, -⟩
    obtain rfl : c = d := by simpa using (List.append_inj' heq rfl).2
    have hc : c ∉ '=' :: mask := by
      intro hmem
      rw [hclass c hmem] at hd
      cases hd
    rw [List.mem_cons, not_or] at hc
    exact ⟨hc.1, fun hmem => absurd hmem hc.2⟩
  blurred := by
    rintro k v v' ⟨h, d, heq, hh, hd, hbare⟩ hv hblur
    rcases List.eq_nil_or_concat' v with rfl | ⟨v, c, rfl⟩
    · obtain rfl : v' = [] := List.map_eq_nil_iff.mp hblur
      exact ⟨h, d, heq, hh, hd, hbare⟩
    rw [← List.append_assoc] at heq
    obtain ⟨rfl, hcd⟩ := List.append_inj' heq rfl
    obtain rfl : c = d := by simpa using hcd
    rw [List.map_append] at hblur
    obtain ⟨v', e, rfl, hv', he⟩ := List.map_eq_append_iff.mp hblur
    obtain ⟨d', rfl, hd'⟩ := List.map_eq_singleton_iff.mp he
    have hneutral : ∀ c, accepts (blur c) = accepts c := by
      obtain ⟨name, hname, -⟩ := hh
      exact hf.neutral name hname (many least accepts) (by simp)
    have hstar : '*' ∉ v' :=
      notMem_of_blur (by decide) (fun c hc => hv c (List.mem_append_left _ hc)) hv'
    refine ⟨k ++ v', d', by simp, hf.spells_congr (by simp [hv']) hh, ?_, fun hmask => ?_⟩
    · rw [← hneutral d', hd', hneutral c]
      exact hd
    · exact hbare ((infix_of_mask hstar hmask).trans (List.prefix_append k v).isInfix)

/-- A value is taken to its end, so that another character or nothing stands behind it. -/
theorem exists_end_of_takeAll? (hspace : accepts ' ' = false) {t x after : Text}
    (h : takeAll? (lead ++ [many least accepts]) t = some (x, after)) :
    ∃ d, accepts d = false ∧ x ++ [d] <+: t ++ [' '] := by
  obtain ⟨_, _, mid, -, hmany, -⟩ := takeAll?_append.mp h
  obtain ⟨_, _, last, htake, hnil, -⟩ := takeAll?_cons.mp hmany
  obtain rfl : last = after := (takeAll?_nil.mp hnil).2
  obtain ⟨-, -, -, hend⟩ := take?_many.mp htake
  rw [eq_append_of_takeAll? h]
  cases last with
  | nil => exact ⟨' ', hspace, by simp⟩
  | cons d last => exact ⟨d, hend d rfl, ⟨last ++ [' '], by simp⟩⟩

/-- A match without a mask shows a text of the kind. -/
theorem exists_bareValue (hf : Form p lead least accepts ends) (hp : p ∈ patterns) {m b : Text}
    (h : p.Finds m b) (hmask : ¬ mask <:+: m) :
    ∃ w, BareValue p lead least accepts w ∧ w <+: m ++ b ++ [' '] := by
  obtain ⟨r, hmatch⟩ := (Pattern.finds_iff hp).mp h
  obtain ⟨name, hname, found, value, mid, rest, hfound, hvalue, -, hlen⟩ :=
    Pattern.exists_of_match? hmatch
  have hm : m = found ++ value := by
    have hsplit : m ++ b = (found ++ value) ++ rest := by
      rw [eq_append_of_takeAll? hfound, eq_append_of_takeAll? hvalue, List.append_assoc]
    exact (List.append_inj hsplit (by rw [hlen, List.length_append])).1
  rw [hf.value] at hvalue
  obtain ⟨x, last, after, hx, -, rfl⟩ := takeAll?_append.mp hvalue
  have hreads : Reads (name ++ (lead ++ [many least accepts])) (found ++ x) :=
    reads_append.mpr ⟨found, x, rfl, reads_of_takeAll? hfound, reads_of_takeAll? hx⟩
  have hbare : ¬ mask <:+: found ++ x := by
    intro h
    refine hmask (h.trans ⟨[], last, ?_⟩)
    rw [hm]
    simp
  obtain ⟨d, hd, hpre⟩ := exists_end_of_takeAll? hf.space hx
  refine ⟨found ++ x ++ [d], ⟨found ++ x, d, rfl, ⟨name, hname, hreads⟩, hd, hbare⟩, ?_⟩
  rw [eq_append_of_takeAll? hfound, List.append_assoc, List.append_assoc]
  exact (List.prefix_append_right_inj found).mpr hpre

theorem betrays_bareValue (hp : p ∈ patterns.tail) (hf : Form p lead least accepts ends)
    (hclass : ∀ c ∈ '=' :: mask, accepts c = true) :
    Betrays p (BareValue p lead least accepts) where
  toTelltale := telltale_bareValue hf hclass
  found := by
    rintro _ x ⟨h, d, rfl, hh, -⟩ hpre
    have hx : h <+: x := by
      rcases List.prefix_concat_iff.mp hpre with heq | hpre
      · exact ⟨[], by rw [(List.append_inj' heq rfl).1, List.append_nil]⟩
      · exact (List.prefix_append h [d]).trans hpre
    exact hf.match?_ne_none (List.mem_of_mem_tail hp) hh hx
  shields := shields_of_match? hp (telltale_bareValue hf hclass)
  shown m b h hmask := exists_bareValue hf (List.mem_of_mem_tail hp) h hmask

end BareValue

/-! ### The whole of redaction -/

/-- Four of the patterns betray every match by its start. -/
theorem exists_form_betrays {p : Pattern} (hp : p ∈ [apiKey, secret, bearer, basic]) :
    p ∈ patterns.tail ∧ ∃ lead least accepts ends,
      Form p lead least accepts ends ∧ Betrays p (Spells p lead least accepts) := by
  simp only [List.mem_cons, List.not_mem_nil, or_false] at hp
  have htail : p ∈ patterns.tail := by
    simp only [patterns, List.tail_cons, List.mem_cons, List.not_mem_nil, or_false]
    tauto
  refine ⟨htail, ?_⟩
  rcases hp with rfl | rfl | rfl | rfl
  · exact ⟨_, _, _, _, form_apiKey, betrays_spells htail form_apiKey (by decide) (by decide)⟩
  · exact ⟨_, _, _, _, form_secret, betrays_spells htail form_secret (by decide) (by decide)⟩
  · exact ⟨_, _, _, _, form_bearer, betrays_spells htail form_bearer (by decide) (by decide)⟩
  · exact ⟨_, _, _, _, form_basic, betrays_spells htail form_basic (by decide) (by decide)⟩

/-- **Every pattern has a kind of text by which its matches are known.** -/
theorem exists_betrays {p : Pattern} (hp : p ∈ patterns) : ∃ K, Betrays p K := by
  by_cases haddress : p = address
  · exact ⟨_, haddress ▸ betrays_address⟩
  by_cases hpassword : p = password
  · have hclass : ∀ c ∈ '=' :: mask, inSecret c = true := List.all_eq_true.mp rfl
    exact ⟨_, hpassword ▸ betrays_bareValue (by simp [patterns]) form_password hclass⟩
  · have hkey : p ∈ [apiKey, secret, bearer, basic] := by
      simpa [patterns, haddress, hpassword] using hp
    obtain ⟨-, _, _, _, _, -, hK⟩ := exists_form_betrays hkey
    exact ⟨_, hK⟩

/-- **Every match that is left is a mask.**  Wherever a search finds something for one of the
patterns in a redacted text, the mask is in it.  For four of the patterns there is nothing to find
at any place. -/
theorem redaction_is_complete (t : Text) :
    (∀ p ∈ patterns, ∀ a m b, redact t = a ++ m ++ b → p.Finds m b → mask <:+: m) ∧
      ∀ p ∈ [apiKey, secret, bearer, basic], ∀ a b, redact t = a ++ b → p.ways b = [] := by
  constructor
  · intro p hp a m b ht hfinds
    by_contra hmask
    obtain ⟨K, hK⟩ := exists_betrays hp
    obtain ⟨w, hw, hpre⟩ := hK.shown m b hfinds hmask
    refine hK.absent_redact hp t hw (hpre.isInfix.trans ⟨a, [], ?_⟩)
    rw [ht]
    simp
  · intro p hp a b ht
    obtain ⟨htail, lead, least, accepts, ends, hf, hK⟩ := exists_form_betrays hp
    by_contra hne
    obtain ⟨w, hw, hpre⟩ := hf.exists_spells hne
    refine hK.absent_redact (List.mem_of_mem_tail htail) t hw (hpre.isInfix.trans ⟨a, [' '], ?_⟩)
    rw [ht]

theorem redaction_is_complete_of_password :
    redact "login: password=SuperSecretPass123! failed".toList =
        "login: ".toList ++ "password=***REDACTED***".toList ++ " failed".toList ∧
      password.Finds "password=***REDACTED***".toList " failed".toList ∧
      mask <:+: "password=***REDACTED***".toList ∧
      bearer.ways "login: password=***REDACTED*** failed".toList = [] := by
  have hredact : redact "login: password=SuperSecretPass123! failed".toList =
      "login: ".toList ++ "password=***REDACTED***".toList ++ " failed".toList := by
    decide +kernel
  have hfinds : password.Finds "password=***REDACTED***".toList " failed".toList :=
    (Pattern.finds_iff (by simp [patterns])).mpr ⟨_, rfl⟩
  have hcomplete := redaction_is_complete "login: password=SuperSecretPass123! failed".toList
  exact ⟨hredact, hfinds, hcomplete.1 password (by simp [patterns]) _ _ _ hredact hfinds,
    hcomplete.2 bearer (by simp) [] _ hredact⟩

end MetricsBridge.Redaction
