import MetricsBridge.Proofs.Server.Matching
import MetricsBridge.Proofs.Text.Occurrence

/-!
# What redaction leaves

`Rewrites` follows a pattern through a text: it keeps a character where the pattern finds nothing
and puts something else in the place of what it finds.  By induction on it, **redaction does not
write a user and a password** (`shows_of_redact`): what it shows of the kind was shown before.  The
login of an address is hidden wherever it stands (`redact_login`), and a text in which no pattern
finds anything is left as it is (`redact_eq_self`).
-/
namespace MetricsBridge.Redaction

/-! ### Following a pattern through a text -/

namespace Pattern

variable {p : Pattern} {t u m r : Text}

@[simp] theorem replaceAll_nil : p.replaceAll [] = [] := rfl

/-- Skipping is dropping, and what came before stays in front. -/
theorem replaceFrom_eq (skip : Nat) (before t : Text) :
    p.replaceFrom skip before t = before.reverse ++ p.replaceAll (t.drop skip) := by
  induction t generalizing skip before with
  | nil => simp [replaceFrom]
  | cons c t ih =>
    cases skip with
    | succ skip => rw [replaceFrom, ih, List.drop_succ_cons]
    | zero =>
      rw [List.drop_zero, replaceAll, replaceFrom, replaceFrom]
      cases p.match? (c :: t) with
      | none => simp [ih]
      | some found => simp [ih]

theorem replaceAll_cons {c : Char} (h : p.match? (c :: t) = none) :
    p.replaceAll (c :: t) = c :: p.replaceAll t := by
  rw [replaceAll, replaceFrom, h]
  exact replaceFrom_eq 0 [c] t

theorem replaceAll_append (h : p.match? (m ++ t) = some (r, m.length)) (hm : m ≠ []) :
    p.replaceAll (m ++ t) = r ++ p.replaceAll t := by
  obtain ⟨c, m, rfl⟩ := List.exists_cons_of_ne_nil hm
  rw [List.cons_append] at h ⊢
  rw [replaceAll, replaceFrom, h]
  dsimp only
  rw [replaceFrom_eq]
  simp

/-- A text with what a pattern finds in it replaced. -/
inductive Rewrites (p : Pattern) : Text → Text → Prop
  | done : Rewrites p [] []
  | keep {c : Char} {t u : Text} : p.match? (c :: t) = none → Rewrites p t u →
      Rewrites p (c :: t) (c :: u)
  | hide {m r t u : Text} : p.match? (m ++ t) = some (r, m.length) → Hides m r →
      Rewrites p t u → Rewrites p (m ++ t) (r ++ u)

theorem rewrites_replaceAll (hp : p ∈ patterns) (t : Text) : Rewrites p t (p.replaceAll t) := by
  induction hn : t.length using Nat.strong_induction_on generalizing t with
  | h n ih =>
    cases t with
    | nil => exact .done
    | cons c t =>
      cases h : p.match? (c :: t) with
      | none =>
        rw [replaceAll_cons h]
        exact .keep h (ih _ (by simp [← hn]) t rfl)
      | some found =>
        obtain ⟨r, n⟩ := found
        obtain ⟨m, z, hmz, rfl, hides⟩ := hides_of_match? hp h
        rw [hmz] at h hn ⊢
        rw [replaceAll_append h hides.ne_nil]
        have hpos := List.length_pos_iff.mpr hides.ne_nil
        exact .hide h hides (ih _ (by simp [← hn]; omega) z rfl)

end Pattern

/-! ### What is shown -/

/-- The text shows `w`, in whatever case. -/
def Shows (t w : Text) : Prop :=
  lower w <:+: lower t

instance (t w : Text) : Decidable (Shows t w) :=
  inferInstanceAs (Decidable (lower w <:+: lower t))

theorem Shows.mono {t t' w : Text} (h : Shows t w) (ht : t <:+: t') : Shows t' w :=
  h.trans (ht.map foldLetter)

/-- A user and a password as an address has them between its slashes and its `@`, which may be the
last character. -/
structure IsPair (w : Text) : Prop where
  colon : ':' ∈ w
  slash : '/' ∉ w
  blank : ' ' ∉ w
  sign : ∀ v, v <+: w → '@' ∈ v → v = w

/-- The text and what redaction writes run into each other: the mask is in the text, the text starts
with an end of the mask, or it ends with a telling name and the start of what stands behind it. -/
def MeetsMask (w : Text) : Prop :=
  lower mask <:+: lower w ∨ (∃ v, v ≠ [] ∧ v <:+ lower mask ∧ v <+: lower w) ∨
    ∃ name ∈ tellingNames, ∃ v, v <+: lower mask ∧ name ++ '=' :: v <:+ lower w

/-- Only texts with a star or an equals sign run into the mask. -/
theorem not_meetsMask {w : Text} (hstar : '*' ∉ w) (hequals : '=' ∉ w) : ¬ MeetsMask w := by
  have hstar' : '*' ∉ lower w := fun h => hstar ((mem_lower rfl).mp h)
  have hequals' : '=' ∉ lower w := fun h => hequals ((mem_lower rfl).mp h)
  have hmask : lower mask = "***redacted**".toList ++ ['*'] := by decide
  rintro (h | ⟨v, hne, hv, hw⟩ | ⟨name, -, v, -, hw⟩)
  · exact hstar' (h.mem (by decide))
  · rw [hmask] at hv
    obtain ⟨v, rfl, -⟩ := (List.suffix_concat_iff.mp hv).resolve_left hne
    exact hstar' (hw.mem (by simp))
  · exact hequals' (hw.mem (by simp))

/-- Where `r` replaces `m`, the text `w` does not come up: an occurrence of it in `r`, at the start
or the end of `r` or around `r` was one before. -/
structure Clear (w m r : Text) : Prop where
  inside : w <:+: r → w <:+: m
  front : ∀ v, v <:+ w → v <+: r → v <+: m
  back : ∀ v, v ≠ [] → v <:+ r → v <+: w → v = w
  cover : ¬ r <:+: w

theorem isPair_lower {w : Text} (hw : IsPair w) : IsPair (lower w) where
  colon := (mem_lower rfl).mpr hw.colon
  slash := fun h => hw.slash ((mem_lower rfl).mp h)
  blank := fun h => hw.blank ((mem_lower rfl).mp h)
  sign := by
    intro v hv hsign
    obtain ⟨v, hvw, rfl⟩ := List.prefix_map_iff.mp hv
    exact congrArg lower (hw.sign v hvw ((mem_lower rfl).mp hsign))

section Clear

variable {w : Text}

theorem clear_login (hw : IsPair w) (l : WebLogin) : Clear w (lower l.text) (lower l.masked) := by
  have htext : lower l.text = lower l.scheme ++ [':'] ++
      '/' :: '/' :: lower (l.pair ++ ['@']) := by
    simp [WebLogin.text]
    decide
  have hmasked : lower l.masked =
      lower l.scheme ++ [':'] ++ '/' :: ('/' :: lower mask ++ ['@']) := by
    simp [WebLogin.masked]
    decide
  have hstart : lower l.scheme ++ [':'] <+: lower l.text := ⟨_, htext.symm⟩
  constructor
  · intro h
    rw [hmasked] at h
    rcases Text.infix_append_cons hw.slash h with h | h
    · exact h.trans hstart.isInfix
    · -- between the slashes and the end there is no colon
      exact absurd (h.mem hw.colon) (by decide)
  · intro v hv h
    rw [hmasked] at h
    exact (Text.prefix_append_cons (fun hs => hw.slash (hv.mem hs)) h).trans hstart
  · intro v hne h hv
    have hsplit : lower l.masked =
        lower l.scheme ++ ':' :: '/' :: '/' :: lower mask ++ ['@'] := by
      rw [hmasked]
      simp
    rw [hsplit] at h
    obtain ⟨v, rfl, -⟩ := (List.suffix_concat_iff.mp h).resolve_left hne
    exact hw.sign _ hv (by simp)
  · intro h
    refine hw.slash (h.mem ?_)
    rw [hmasked]
    simp

/-- What is written in front of the mask runs into nothing; only the mask does. -/
theorem back_of_not_meets {w x v : Text} (hm : ¬ MeetsMask w) (hne : v ≠ [])
    (h : v <:+ x ++ lower mask) (hv : v <+: lower w) : False := by
  rcases List.suffix_or_suffix_of_suffix h (List.suffix_append x (lower mask)) with h | h
  · exact hm (.inr (.inl ⟨v, hne, h, hv⟩))
  · exact hm (.inl (h.isInfix.trans hv.isInfix))

theorem clear_value (hw : IsPair w) (hm : ¬ MeetsMask w) {name value : Text}
    (hname : lower name ∈ tellingNames) :
    Clear (lower w) (lower (name ++ value)) (lower (name ++ '=' :: mask)) := by
  have hsplit : lower (name ++ '=' :: mask) = lower name ++ '=' :: lower mask := by
    rw [lower_append, lower_cons]
    rfl
  have hnames : ∀ name ∈ tellingNames, ':' ∉ name ++ '=' :: lower mask := by decide
  rw [hsplit, lower_append]
  constructor
  · intro h
    exact absurd (h.mem (isPair_lower hw).colon) (hnames _ hname)
  · intro v hv h
    rcases List.prefix_or_prefix_of_prefix h (List.prefix_append _ _) with hpre | ⟨x, rfl⟩
    · exact hpre.trans (List.prefix_append _ _)
    · cases x with
      | nil => simp
      | cons c x =>
        obtain ⟨rfl, hx⟩ := List.cons_prefix_cons.mp ((List.prefix_append_right_inj _).mp h)
        exact absurd (.inr (.inr ⟨_, hname, x, hx, hv⟩)) hm
  · intro v hne h hv
    have hassoc : lower name ++ '=' :: lower mask = (lower name ++ ['=']) ++ lower mask := by simp
    rw [hassoc] at h
    exact (back_of_not_meets hm hne h hv).elim
  · intro h
    have hmask : lower mask <:+ lower name ++ '=' :: lower mask := ⟨lower name ++ ['='], by simp⟩
    exact hm (.inl (hmask.isInfix.trans h))

theorem clear_proof (hw : IsPair w) (hm : ¬ MeetsMask w) {word value title : Text}
    (htitle : title ∈ provingWords) (hword : lower word = lower title) :
    Clear (lower w) (lower (word ++ value)) (lower (title ++ ' ' :: mask)) := by
  have hpair := isPair_lower hw
  have hsplit : lower (title ++ ' ' :: mask) = lower title ++ ' ' :: lower mask := by
    rw [lower_append, lower_cons]
    rfl
  have htitles : ∀ title ∈ provingWords, ':' ∉ lower title ++ ' ' :: lower mask := by decide
  rw [hsplit, lower_append, hword]
  constructor
  · intro h
    exact absurd (h.mem hpair.colon) (htitles _ htitle)
  · intro v hv h
    have hblank : ' ' ∉ v := fun hb => hpair.blank (hv.mem hb)
    exact (Text.prefix_append_cons hblank h).trans (List.prefix_append _ _)
  · intro v hne h hv
    have hassoc : lower title ++ ' ' :: lower mask = (lower title ++ [' ']) ++ lower mask := by simp
    rw [hassoc] at h
    exact (back_of_not_meets hm hne h hv).elim
  · intro h
    exact hpair.blank (h.mem (by simp))

theorem clear_of_hides (hw : IsPair w) (hm : ¬ MeetsMask w) {m r : Text} (h : Hides m r) :
    Clear (lower w) (lower m) (lower r) := by
  cases h with
  | login l => exact clear_login (isPair_lower hw) l
  | value hname => exact clear_value hw hm hname
  | proof htitle hword => exact clear_proof hw hm htitle hword

end Clear

/-- **Replacing what a pattern finds does not write a user and a password**: they, and every end of
them that the text starts with, were there before. -/
theorem infix_of_rewrites {p : Pattern} {w t u : Text} (hw : IsPair w) (hm : ¬ MeetsMask w)
    (h : p.Rewrites t u) : (∀ v, v <:+ lower w → v <+: lower u → v <+: lower t) ∧
      (lower w <:+: lower u → lower w <:+: lower t) := by
  induction h with
  | done => exact ⟨fun v _ h => h, id⟩
  | @keep c t u _ _ ih =>
    have hstart : ∀ v, v <:+ lower w → v <+: lower (c :: u) → v <+: lower (c :: t) := by
      intro v hv h
      rw [lower_cons] at h ⊢
      rcases List.prefix_cons_iff.mp h with rfl | ⟨x, rfl, hx⟩
      · exact List.nil_prefix
      · rw [List.cons_prefix_cons]
        exact ⟨rfl, ih.1 x ((List.suffix_cons _ x).trans hv) hx⟩
    refine ⟨hstart, fun h => ?_⟩
    rcases List.infix_cons_iff.mp h with h | h
    · exact (hstart _ List.suffix_rfl h).isInfix
    · exact List.infix_cons (ih.2 h)
  | @hide m r t u _ hides _ ih =>
    have hclear := clear_of_hides hw hm hides
    have hfront : ∀ v, v <:+ lower w → v <+: lower (r ++ u) → v <+: lower (m ++ t) := by
      intro v hv h
      rw [lower_append] at h ⊢
      rcases List.prefix_or_prefix_of_prefix h (List.prefix_append _ _) with hr | hr
      · exact (hclear.front v hv hr).trans (List.prefix_append _ _)
      · exact absurd (hr.isInfix.trans hv.isInfix) hclear.cover
    refine ⟨hfront, fun h => ?_⟩
    rw [lower_append] at h ⊢
    have hinside : lower w <:+: lower r → lower w <:+: lower m ++ lower t := fun h =>
      List.infix_append_of_infix_left (hclear.inside h)
    rcases List.infix_append_iff_ne_nil.mp h with h | h | ⟨x, y, hx, -, hxy, hxr, -⟩
    · exact hinside h
    · exact List.infix_append_of_infix_right (ih.2 h)
    · have hpre : x <+: lower w := ⟨y, hxy.symm⟩
      exact hinside (hclear.back x hx hxr hpre ▸ hxr.isInfix)

/-- **Redaction does not write a user and a password.**  What it shows of the kind was shown
before, but for texts that run into the mask. -/
theorem shows_of_redact {w : Text} (hw : IsPair w) (hm : ¬ MeetsMask w) {t : Text}
    (h : Shows (redact t) w) : Shows t w := by
  have hfold : ∀ ps : List Pattern, (∀ p ∈ ps, p ∈ patterns) → ∀ t,
      Shows (ps.foldl (fun t p => p.replaceAll t) t) w → Shows t w := by
    intro ps
    induction ps with
    | nil => exact fun _ _ h => h
    | cons p ps ih =>
      intro hps t h
      have hrest := ih (fun q hq => hps q (List.mem_cons_of_mem p hq)) (p.replaceAll t) h
      exact (infix_of_rewrites hw hm (Pattern.rewrites_replaceAll (hps p List.mem_cons_self) t)).2
        hrest
  exact hfold patterns (fun _ h => h) t h

/-! ### Logins in a text -/

namespace Pattern

variable {p : Pattern} {a b : Text}

/-- What lies in front of a place is left as it is, if the pattern finds nothing there. -/
theorem replaceAll_append_of_none (h : ∀ x, x ≠ [] → x <:+ a → p.match? (x ++ b) = none) :
    p.replaceAll (a ++ b) = a ++ p.replaceAll b := by
  induction a with
  | nil => rfl
  | cons c a ih =>
    have hrest := ih fun x hx hxa => h x hx (hxa.trans (List.suffix_cons c a))
    have hhead : p.match? (c :: (a ++ b)) = none := h (c :: a) (by simp) List.suffix_rfl
    rw [List.cons_append, replaceAll_cons hhead, hrest, List.cons_append]

theorem replaceAll_append_of_rewrites {u : Text} (hp : p.Rewrites a u)
    (h : ∀ x, x ≠ [] → x <:+ a → p.match? (x ++ b) = p.match? x) :
    p.replaceAll (a ++ b) = u ++ p.replaceAll b := by
  induction hp with
  | done => rfl
  | @keep c a u hnone _ ih =>
    have hrest := ih fun x hx hxa => h x hx (hxa.trans (List.suffix_cons c a))
    have hhead : p.match? (c :: (a ++ b)) = none := by
      rw [← List.cons_append, h (c :: a) (by simp) List.suffix_rfl, hnone]
    rw [List.cons_append, replaceAll_cons hhead, hrest, List.cons_append]
  | @hide m r a u hsome hides _ ih =>
    have hrest := ih fun x hx hxa => h x hx (hxa.trans (List.suffix_append m a))
    have hhead : p.match? (m ++ (a ++ b)) = some (r, m.length) := by
      rw [← List.append_assoc, h (m ++ a) (by simp [hides.ne_nil]) List.suffix_rfl, hsome]
    rw [List.append_assoc, replaceAll_append hhead hides.ne_nil, hrest, List.append_assoc]

/-- The parts in front of a place and behind it are rewritten each on its own, if no match crosses
the place. -/
theorem replaceAll_append_of_local (hp : p ∈ patterns)
    (h : ∀ x, x ≠ [] → x <:+ a → p.match? (x ++ b) = p.match? x) :
    p.replaceAll (a ++ b) = p.replaceAll a ++ p.replaceAll b :=
  replaceAll_append_of_rewrites (rewrites_replaceAll hp a) h

end Pattern

theorem inPassword_of_inUser {c : Char} (h : inUser c = true) : inPassword c = true := by
  simp only [inUser, Bool.not_eq_true', Bool.or_eq_false_iff] at h
  obtain ⟨⟨⟨hslash, hblank⟩, -⟩, hsign⟩ := h
  simp [inPassword, hslash, hblank, hsign]

/-- What a password may not have is in no user and no password. -/
theorem notMem_pair {user password : Text} (huser : ∀ c ∈ user, inUser c = true)
    (hpassword : ∀ c ∈ password, inPassword c = true) {mark : Char}
    (hm : inPassword mark = false) (hcolon : mark ≠ ':') : mark ∉ user ++ ':' :: password := by
  intro h
  rcases List.mem_append.mp h with h | h
  · rw [inPassword_of_inUser (huser _ h)] at hm
    exact absurd hm (by simp)
  · have hmem := (List.mem_cons.mp h).resolve_left hcolon
    rw [hpassword _ hmem] at hm
    exact absurd hm (by simp)

namespace WebLogin

variable (l : WebLogin)

theorem slash_notMem_pair : '/' ∉ l.pair :=
  notMem_pair l.inUser l.inPassword (by decide) (by decide)

theorem colon_mem_pair : ':' ∈ l.pair :=
  List.mem_append_right _ List.mem_cons_self

theorem sign_notMem_pair : '@' ∉ l.pair :=
  notMem_pair l.inUser l.inPassword (by decide) (by decide)

end WebLogin

theorem IsWeb.isLetter {scheme : Text} (h : IsWeb scheme) {c : Char} (hc : c ∈ scheme) :
    isLetter c = true := by
  have hletters : (lower scheme).all Redaction.isLetter = true := by
    rcases h with h | h
    · rw [h]; rfl
    · rw [h]; rfl
  rw [← isLetter_foldLetter]
  exact List.all_eq_true.mp hletters _ (List.mem_map_of_mem hc)

theorem IsWeb.notMem {scheme : Text} (h : IsWeb scheme) (mark : Char)
    (hm : Redaction.isLetter mark = false) : mark ∉ scheme := by
  intro hmem
  rw [h.isLetter hmem] at hm
  exact absurd hm (by simp)

theorem IsWeb.ne_nil {scheme : Text} (h : IsWeb scheme) : scheme ≠ [] := by
  rintro rfl
  exact absurd h (by decide)

/-- No scheme of the web ends in another one. -/
theorem IsWeb.eq_nil_of_append {x scheme : Text} (hs : IsWeb scheme) (h : IsWeb (x ++ scheme)) :
    x = [] := by
  unfold IsWeb at hs h
  rw [lower_append] at h
  have hsuffix : ∀ {long}, lower x ++ lower scheme = long → lower scheme <:+ long :=
    fun h => ⟨lower x, h⟩
  have hsame : ∀ {same}, lower x ++ same = same → x = [] := fun h =>
    List.map_eq_nil_iff.mp (List.append_left_eq_self.mp h)
  rcases hs with hs | hs <;> rcases h with h | h
  · exact hsame (hs ▸ h)
  · exact absurd (hs ▸ hsuffix h) (by decide)
  · exact absurd (hs ▸ hsuffix h) (by decide)
  · exact hsame (hs ▸ h)

theorem WebLogin.count_slash (l : WebLogin) : l.text.count '/' = 2 := by
  have hscheme : l.scheme.count '/' = 0 := List.count_eq_zero.mpr (l.isWeb.notMem '/' rfl)
  have hpair : l.pair.count '/' = 0 := List.count_eq_zero.mpr l.slash_notMem_pair
  simp [WebLogin.text, hscheme, hpair]

/-- A login does not cross the start of an address. -/
theorem WebLogin.text_prefix_append (l : WebLogin) {scheme x b : Text} (hs : IsWeb scheme)
    (hx : x ≠ []) : l.text <+: x ++ (scheme ++ "://".toList ++ b) ↔ l.text <+: x := by
  refine ⟨fun h => ?_, fun h => h.trans (List.prefix_append _ _)⟩
  rcases List.prefix_or_prefix_of_prefix h (List.prefix_append _ _) with h' | ⟨y, hy⟩
  · exact h'
  by_cases hnil : y = []
  · simp [← hy, hnil]
  have hsign : '@' ∈ y := by
    have hend : y <:+ l.text := ⟨x, hy⟩
    obtain ⟨y, rfl, -⟩ := (List.suffix_concat_iff.mp hend).resolve_left hnil
    simp
  have hpre : y <+: scheme ++ "://".toList ++ b :=
    (List.prefix_append_right_inj x).mp (hy.symm ▸ h)
  rcases List.prefix_or_prefix_of_prefix hpre (List.prefix_append _ _) with hpre | ⟨y, rfl⟩
  · rcases List.mem_append.mp (hpre.mem hsign) with h | h
    · exact absurd h (hs.notMem '@' rfl)
    · exact absurd h (by decide)
  · -- the login would hold the slashes behind `x`, and it has no others
    have hslash : '/' ∉ x := by
      have hcount := l.count_slash
      rw [← hy] at hcount
      simp only [List.count_append] at hcount
      have htwo : "://".toList.count '/' = 2 := by decide
      exact List.count_eq_zero.mp (by omega)
    have hx' : '/' ∉ x ++ scheme ++ [':'] := by simp [hslash, hs.notMem '/' rfl]
    have hl : '/' ∉ l.scheme ++ [':'] := by simp [l.isWeb.notMem '/' rfl]
    have heq : (x ++ scheme ++ [':']) ++ '/' :: '/' :: y =
        (l.scheme ++ [':']) ++ '/' :: '/' :: (l.pair ++ ['@']) := by
      simpa [WebLogin.text] using hy
    have hscheme := List.append_left_injective _ ((Text.append_cons_inj hx' hl).mp heq).1
    exact absurd (hs.eq_nil_of_append (hscheme ▸ l.isWeb)) hx

theorem address_local {scheme : Text} (hs : IsWeb scheme) (b : Text) {x : Text} (hx : x ≠ []) :
    address.match? (x ++ (scheme ++ "://".toList ++ b)) = address.match? x := by
  apply Option.ext
  rintro ⟨r, n⟩
  simp only [address_match?, WebLogin.text_prefix_append _ hs hx]

theorem address_masked (l : WebLogin) {x b : Text} (hne : x ≠ []) (hx : x <:+ l.masked) :
    address.match? (x ++ b) = none := by
  rw [Option.eq_none_iff_forall_ne_some]
  rintro ⟨r, n⟩ h
  obtain ⟨l', ⟨z, hz⟩, -, -⟩ := address_match?.mp h
  obtain ⟨x, rfl, k, hk⟩ := (List.suffix_concat_iff.mp hx).resolve_left hne
  have hstart : '@' ∉ l'.scheme ++ "://".toList ++ l'.pair := by
    simp [l'.isWeb.notMem '@' rfl, l'.sign_notMem_pair]
  have hx : '@' ∉ x := by
    have hmasked : '@' ∉ l.scheme ++ "://".toList ++ mask := by
      simp [l.isWeb.notMem '@' rfl]
      decide
    rw [← hk, List.mem_append, not_or] at hmasked
    exact hmasked.2
  have heq : (l'.scheme ++ "://".toList ++ l'.pair) ++ '@' :: z = x ++ '@' :: b := by
    simpa [WebLogin.text] using hz
  obtain ⟨rfl, -⟩ := (Text.append_cons_inj hstart hx).mp heq
  have hmask : (k ++ l'.scheme ++ [':', '/']) ++ '/' :: l'.pair =
      (l.scheme ++ [':', '/']) ++ '/' :: mask := by
    simpa using hk
  have hpair := ((Text.append_cons_inj_right l'.slash_notMem_pair (by decide)).mp hmask).2
  exact absurd (hpair ▸ l'.colon_mem_pair) (by decide)

/-- **The login of an address is hidden wherever it stands**, as if the mask had stood there. -/
theorem redact_login (l : WebLogin) (a b : Text) :
    redact (a ++ l.text ++ b) = redact (a ++ l.masked ++ b) := by
  have hlocal : ∀ b, address.replaceAll (a ++ (l.scheme ++ "://".toList ++ b)) =
      address.replaceAll a ++ address.replaceAll (l.scheme ++ "://".toList ++ b) := fun b =>
    Pattern.replaceAll_append_of_local (by simp [patterns]) fun x hx _ => address_local l.isWeb b hx
  have htext : address.replaceAll (l.text ++ b) = l.masked ++ address.replaceAll b :=
    Pattern.replaceAll_append (address_match?.mpr ⟨l, List.prefix_append _ _, rfl, rfl⟩)
      (by simp [WebLogin.text])
  have hmasked : address.replaceAll (l.masked ++ b) = l.masked ++ address.replaceAll b :=
    Pattern.replaceAll_append_of_none fun x hne hx => address_masked l hne hx
  have heq : address.replaceAll (a ++ l.text ++ b) = address.replaceAll (a ++ l.masked ++ b) := by
    have hleft : a ++ l.text ++ b = a ++ (l.scheme ++ "://".toList ++ (l.pair ++ '@' :: b)) := by
      simp [WebLogin.text]
    have hright : a ++ l.masked ++ b = a ++ (l.scheme ++ "://".toList ++ (mask ++ '@' :: b)) := by
      simp [WebLogin.masked]
    have hleft' : l.scheme ++ "://".toList ++ (l.pair ++ '@' :: b) = l.text ++ b := by
      simp [WebLogin.text]
    have hright' : l.scheme ++ "://".toList ++ (mask ++ '@' :: b) = l.masked ++ b := by
      simp [WebLogin.masked]
    rw [hleft, hright, hlocal, hlocal, hleft', hright', htext, hmasked]
  exact congrArg ((patterns.drop 1).foldl fun t p => p.replaceAll t) heq

/-- Around a mask, a user and a password are shown in front of the slashes or behind the mask. -/
theorem shows_of_masked {w : Text} (hw : IsPair w) (l : WebLogin) {a b : Text}
    (h : Shows (a ++ l.masked ++ b) w) : Shows (a ++ l.scheme ++ [':']) w ∨ Shows b w := by
  have hlow := isPair_lower hw
  have hsplit : lower (a ++ l.masked ++ b) =
      lower (a ++ l.scheme ++ [':']) ++ '/' :: ('/' :: (lower mask ++ '@' :: lower b)) := by
    simp [WebLogin.masked]
    decide
  have hmask : ¬ lower w <:+: lower mask := fun h => absurd (h.mem hlow.colon) (by decide)
  unfold Shows at h ⊢
  rw [hsplit] at h
  rcases Text.infix_append_cons hlow.slash h with h | h
  · exact .inl h
  right
  replace h : lower w <:+: [] ++ '/' :: (lower mask ++ '@' :: lower b) := h
  rcases Text.infix_append_cons hlow.slash h with h | h
  · exact absurd (h.mem hlow.colon) (by simp)
  by_cases hsign : '@' ∈ lower w
  · -- the `@` ends the text, and the mask has no colon in front of its own
    obtain ⟨v, z, hv, hfirst⟩ := List.eq_append_cons_of_mem hsign
    have hend : v ++ ['@'] = lower w := hlow.sign _ ⟨z, by simp [hv]⟩ (by simp)
    have hcolon : ':' ∈ v := by simpa [← hend] using hlow.colon
    rw [← hend] at h ⊢
    rcases Text.infix_append_cons_of_last hfirst (by decide) h with h | h
    · exact absurd (h.mem hcolon) (by decide)
    · exact h
  · rcases Text.infix_append_cons hsign h with h | h
    · exact absurd h hmask
    · exact h

/-! ### Texts that are left as they are -/

/-- None of the names and words behind which a secret is expected occurs in the text. -/
def Quiet (t : Text) : Prop :=
  ∀ w ∈ tellingNames ++ provingWords.map lower, ¬ w <:+: lower t

instance (t : Text) : Decidable (Quiet t) :=
  inferInstanceAs (Decidable (∀ w ∈ _, ¬ w <:+: lower t))

/-- In a quiet text only logins are found. -/
theorem Quiet.eq_none_of_no_login {t : Text} (hq : Quiet t) (hl : ∀ l : WebLogin, ¬ l.text <:+: t)
    {p : Pattern} (hp : p ∈ patterns) {x : Text} (hx : x <:+ t) : p.match? x = none := by
  rw [Option.eq_none_iff_forall_ne_some]
  rintro ⟨r, n⟩ h
  obtain ⟨m, z, rfl, -, hides⟩ := hides_of_match? hp h
  have hm : m <:+: t := (List.prefix_append m z).isInfix.trans hx.isInfix
  cases hides with
  | login l => exact hl l hm
  | @value name value hname =>
    have hlow : lower name <:+: lower t :=
      ((List.prefix_append name value).isInfix.trans hm).map foldLetter
    exact hq _ (List.mem_append_left _ hname) hlow
  | @proof word value title htitle hword =>
    have hlow : lower word <:+: lower t :=
      ((List.prefix_append word value).isInfix.trans hm).map foldLetter
    exact hq _ (List.mem_append_right _ (hword ▸ List.mem_map_of_mem htitle)) hlow

/-- **A quiet text without a login is left as it is.** -/
theorem redact_eq_self {t : Text} (hq : Quiet t) (hl : ∀ l : WebLogin, ¬ l.text <:+: t) :
    redact t = t := by
  have hone : ∀ p ∈ patterns, p.replaceAll t = t := by
    intro p hp
    have hnone := Pattern.replaceAll_append_of_none (p := p) (a := t) (b := []) fun x _ hx => by
      rw [List.append_nil]
      exact hq.eq_none_of_no_login hl hp hx
    simpa using hnone
  have hfold : ∀ ps : List Pattern, (∀ p ∈ ps, p ∈ patterns) →
      ps.foldl (fun t p => p.replaceAll t) t = t := by
    intro ps
    induction ps with
    | nil => exact fun _ => rfl
    | cons p ps ih =>
      intro hps
      rw [List.foldl_cons, hone p (hps p List.mem_cons_self)]
      exact ih fun q hq => hps q (List.mem_cons_of_mem p hq)
  exact hfold patterns fun _ h => h

/-- Where there is one `@`, a login has to stand right in front of it. -/
theorem WebLogin.suffix_of_infix (l : WebLogin) {a b : Text} (ha : '@' ∉ a) (hb : '@' ∉ b)
    (h : l.text <:+: a ++ '@' :: b) : l.scheme ++ "://".toList ++ l.pair <:+ a := by
  have hstart : '@' ∉ l.scheme ++ "://".toList ++ l.pair := by
    simp [l.isWeb.notMem '@' rfl, l.sign_notMem_pair]
  rcases Text.infix_append_cons_of_last hstart ha h with h | h
  · exact h
  · exact absurd (h.mem (by simp)) hb

end MetricsBridge.Redaction
