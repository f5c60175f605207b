import Mathlib
import MetricsBridge.Server.Redaction

/-!
# What the patterns find

A pattern finds a text by taking runs of characters one after the other.  The lemmas on runs say
exactly what each kind of run takes.  From them come `address_match?`, all that the pattern of
addresses finds, and `hides_of_match?`, what every pattern finds and what it puts in its place.
-/
namespace MetricsBridge.Redaction

/-! ### Letters -/

theorem foldLetter_of_not_letter {c : Char} (hc : isLetter c = false) : foldLetter c = c := by
  simp only [isLetter, Bool.or_eq_false_iff, beq_eq_false_iff_ne] at hc
  obtain ⟨⟨halpha, hs⟩, hk⟩ := hc
  have hupper : ¬c.isUpper = true := by
    intro h
    simp [Char.isAlpha, h] at halpha
  rw [foldLetter, if_neg hs, if_neg hk, Char.toLower_eq_of_not_isUpper hupper]

theorem isLetter_foldLetter (c : Char) : isLetter (foldLetter c) = isLetter c := by
  cases hc : isLetter c with
  | false => rw [foldLetter_of_not_letter hc, hc]
  | true =>
    unfold foldLetter
    split_ifs with hs hk
    · rfl
    · rfl
    · have halpha : c.isAlpha = true := by simpa [isLetter, hs, hk] using hc
      simp [isLetter, Char.isAlpha_toLower_eq_isAlpha, halpha]

theorem toLower_ne {c mark : Char} (hc : c ≠ mark) (hm : mark.isAlpha = false) :
    c.toLower ≠ mark := by
  intro h
  by_cases hupper : c.isUpper = true
  · have halpha : c.toLower.isAlpha = true := by simp [Char.isAlpha, hupper]
    rw [h, hm] at halpha
    exact absurd halpha (by simp)
  · rw [Char.toLower_eq_of_not_isUpper hupper] at h
    exact hc h

@[simp] theorem foldLetter_foldLetter (c : Char) : foldLetter (foldLetter c) = foldLetter c := by
  by_cases hs : c = '\u017F'
  · rw [hs]
    rfl
  by_cases hk : c = '\u212A'
  · rw [hk]
    rfl
  have hc : foldLetter c = c.toLower := by rw [foldLetter, if_neg hs, if_neg hk]
  rw [hc, foldLetter, if_neg (toLower_ne hs rfl), if_neg (toLower_ne hk rfl),
    Char.toLower_toLower_eq_toLower]

theorem ne_of_letter {c mark : Char} (h : isLetter c = true) (hm : isLetter mark = false) :
    c ≠ mark := by
  rintro rfl
  simp [h] at hm

theorem isBlank_of_letter {c : Char} (h : isLetter c = true) : isBlank c = false := by
  have hA : 'A'.val.toNat = 65 := rfl
  have hZ : 'Z'.val.toNat = 90 := rfl
  have ha : 'a'.val.toNat = 97 := rfl
  have hz : 'z'.val.toNat = 122 := rfl
  have hc : c.toNat = c.val.toNat := rfl
  simp only [isLetter, Char.isAlpha, Char.isUpper, Char.isLower, Bool.or_eq_true, beq_iff_eq,
    Bool.and_eq_true, decide_eq_true_eq, ge_iff_le, UInt32.le_iff_toNat_le] at h
  rcases h with (h | rfl) | rfl
  · unfold isBlank
    simp
    omega
  · decide
  · decide

theorem isBlank_of_digit {c : Char} (h : c.isDigit = true) : isBlank c = false := by
  have hzero : '0'.val.toNat = 48 := rfl
  have hnine : '9'.val.toNat = 57 := rfl
  have hc : c.toNat = c.val.toNat := rfl
  simp only [Char.isDigit, Bool.and_eq_true, decide_eq_true_eq, ge_iff_le,
    UInt32.le_iff_toNat_le] at h
  unfold isBlank
  simp
  omega

theorem isWordChar_of_blank {c : Char} (h : isBlank c = true) : isWordChar c = false := by
  rw [isWordChar, Bool.or_eq_false_iff]
  constructor
  · by_contra hc
    simp [isBlank_of_letter (by simpa using hc : isLetter c = true)] at h
  · by_contra hc
    simp [isBlank_of_digit (by simpa using hc : c.isDigit = true)] at h

/-- A blank is no mark that is not one. -/
theorem ne_of_blank {c mark : Char} (h : isBlank c = true) (hm : isBlank mark = false) :
    c ≠ mark := by
  rintro rfl
  simp [h] at hm

theorem isKeyChar_of_blank {c : Char} (h : isBlank c = true) : isKeyChar c = false := by
  have hlow : c ≠ '_' := ne_of_blank h rfl
  have hdash : c ≠ '-' := ne_of_blank h rfl
  simp [isKeyChar, isWordChar_of_blank h, hlow, hdash]

/-- A text in lower case, as the patterns compare it. -/
def lower (t : Text) : Text :=
  t.map foldLetter

@[simp] theorem lower_nil : lower [] = [] := rfl

@[simp] theorem lower_cons (c : Char) (t : Text) : lower (c :: t) = foldLetter c :: lower t := rfl

@[simp] theorem lower_append (a b : Text) : lower (a ++ b) = lower a ++ lower b :=
  List.map_append

@[simp] theorem length_lower (t : Text) : (lower t).length = t.length :=
  List.length_map _

/-- Only letters have a case. -/
theorem mem_lower {mark : Char} (hm : isLetter mark = false) {t : Text} :
    mark ∈ lower t ↔ mark ∈ t := by
  unfold lower
  rw [List.mem_map]
  constructor
  · rintro ⟨c, hc, rfl⟩
    rw [isLetter_foldLetter] at hm
    rwa [foldLetter_of_not_letter hm]
  · intro h
    exact ⟨mark, h, foldLetter_of_not_letter hm⟩

theorem lower_of_not_letter {t : Text} (h : ∀ c ∈ t, isLetter c = false) : lower t = t := by
  unfold lower
  rw [List.map_congr_left fun c hc => foldLetter_of_not_letter (h c hc), List.map_id']

theorem isLetter_of_lower_eq {t u : Text} (h : lower t = lower u)
    (hu : ∀ c ∈ u, isLetter c = true) : ∀ c ∈ t, isLetter c = true := by
  intro c hc
  have hmem : foldLetter c ∈ lower u := h ▸ List.mem_map_of_mem hc
  obtain ⟨d, hd, hdc⟩ := List.mem_map.mp hmem
  rw [← isLetter_foldLetter, ← hdc, isLetter_foldLetter]
  exact hu d hd

/-- Texts without letters are the same in any case. -/
theorem lower_eq_iff {mark : Text} (hm : mark.any isLetter = false) {t : Text} :
    lower t = mark ↔ t = mark := by
  replace hm : ∀ c ∈ mark, isLetter c = false := by simpa using hm
  constructor
  · rintro rfl
    refine (lower_of_not_letter fun c hc => ?_).symm
    rw [← isLetter_foldLetter]
    exact hm _ (List.mem_map_of_mem hc)
  · rintro rfl
    exact lower_of_not_letter hm

/-! ### Runs -/

namespace Run

variable {accepts : Char → Bool} {t x rest : Text} {r : Run} {runs runs' : List Run}

theorem take?_one : (one accepts).take? t = some (x, rest) ↔
    ∃ c, accepts c = true ∧ x = [c] ∧ t = c :: rest := by
  cases t with
  | nil => simp [take?, one]
  | cons c t =>
    by_cases hc : accepts c = true
    · simp [take?, one, hc, @eq_comm _ x]
    · simp [take?, one, hc]

theorem take?_maybe : (maybe accepts).take? t = some (x, rest) ↔
    (∃ c, accepts c = true ∧ x = [c] ∧ t = c :: rest) ∨
      (x = [] ∧ t = rest ∧ ∀ c ∈ rest.head?, accepts c = false) := by
  cases t with
  | nil =>
    have hnil : (maybe accepts).take? [] = some ([], []) := rfl
    rw [hnil]
    constructor
    · rintro ⟨⟩
      exact .inr ⟨rfl, rfl, by simp⟩
    · rintro (⟨c, -, -, hc⟩ | ⟨rfl, rfl, -⟩)
      · simp at hc
      · rfl
  | cons c t =>
    have hcons : (maybe accepts).take? (c :: t) =
        if accepts c then some ([c], t) else some ([], c :: t) := by
      by_cases hc : accepts c = true
      · simp [take?, maybe, hc]
      · simp [take?, maybe, hc]
    rw [hcons]
    constructor
    · intro h
      split_ifs at h with hc
      · cases h
        exact .inl ⟨c, hc, rfl, rfl⟩
      · cases h
        exact .inr ⟨rfl, rfl, by simpa using hc⟩
    · rintro (⟨d, hd, rfl, hcons⟩ | ⟨rfl, rfl, hrest⟩)
      · cases hcons
        rw [if_pos hd]
      · rw [hrest c rfl]
        rfl

theorem take?_many {least : Nat} : (many least accepts).take? t = some (x, rest) ↔
    t = x ++ rest ∧ least ≤ x.length ∧ (∀ c ∈ x, accepts c = true) ∧
      ∀ c ∈ rest.head?, accepts c = false := by
  have htake : (many least accepts).take? t =
      if least ≤ (t.takeWhile accepts).length
      then some (t.takeWhile accepts, t.dropWhile accepts) else none := by
    have hdrop : (t.takeWhile accepts ++ t.dropWhile accepts).drop (t.takeWhile accepts).length =
        t.dropWhile accepts := List.drop_left
    rw [List.takeWhile_append_dropWhile] at hdrop
    simp only [take?, many, hdrop]
  rw [htake]
  constructor
  · intro h
    split_ifs at h with hleast
    obtain ⟨rfl, rfl⟩ : t.takeWhile accepts = x ∧ t.dropWhile accepts = rest := by simpa using h
    refine ⟨List.takeWhile_append_dropWhile.symm, hleast, fun c => List.mem_takeWhile_imp, ?_⟩
    intro c hc
    have hnot := List.head?_dropWhile_not accepts t
    rw [Option.mem_def] at hc
    simpa [hc] using hnot
  · rintro ⟨rfl, hleast, hx, hrest⟩
    have hnil : rest.takeWhile accepts = [] := by
      cases rest with
      | nil => rfl
      | cons c rest => simp [hrest c rfl]
    have hall : rest.dropWhile accepts = rest := by
      cases rest with
      | nil => rfl
      | cons c rest => simp [hrest c rfl]
    rw [List.takeWhile_append_of_pos hx, List.dropWhile_append_of_pos hx, hnil, hall,
      List.append_nil, if_pos hleast]

theorem take?_append (h : r.take? t = some (x, rest)) : t = x ++ rest := by
  unfold take? at h
  dsimp only at h
  split_ifs at h
  rw [Option.some.injEq, Prod.mk.injEq] at h
  obtain ⟨rfl, rfl⟩ := h
  apply List.prefix_append_drop
  refine (List.takeWhile_prefix _).trans ?_
  split
  · exact List.take_prefix _ _
  · exact List.prefix_rfl

@[simp] theorem takeAll?_nil : takeAll? [] t = some (x, rest) ↔ x = [] ∧ t = rest := by
  simp [takeAll?, eq_comm]

theorem takeAll?_cons : takeAll? (r :: runs) t = some (x, rest) ↔
    ∃ a b mid, r.take? t = some (a, mid) ∧ takeAll? runs mid = some (b, rest) ∧ x = a ++ b := by
  simp only [takeAll?, Option.pure_def, Option.bind_eq_bind, Option.bind_eq_some_iff,
    Option.some.injEq, Prod.mk.injEq, Prod.exists]
  constructor
  · rintro ⟨a, mid, ha, b, rest', hb, rfl, rfl⟩
    exact ⟨a, b, mid, ha, hb, rfl⟩
  · rintro ⟨a, b, mid, ha, hb, rfl⟩
    exact ⟨a, mid, ha, b, rest, hb, rfl, rfl⟩

theorem takeAll?_append : takeAll? (runs ++ runs') t = some (x, rest) ↔
    ∃ a b mid,
      takeAll? runs t = some (a, mid) ∧ takeAll? runs' mid = some (b, rest) ∧ x = a ++ b := by
  induction runs generalizing t x with
  | nil => simp
  | cons r runs ih =>
    simp only [List.cons_append, takeAll?_cons, ih]
    constructor
    · rintro ⟨a, _, mid, ha, ⟨b, d, mid', hb, hd, rfl⟩, rfl⟩
      exact ⟨a ++ b, d, mid', ⟨a, b, mid, ha, hb, rfl⟩, hd, by simp⟩
    · rintro ⟨_, d, mid', ⟨a, b, mid, ha, hb, rfl⟩, hd, rfl⟩
      exact ⟨a, b ++ d, mid, ha, ⟨b, d, mid', hb, hd, rfl⟩, by simp⟩

/-- What runs take is the start of the text, and they leave the rest. -/
theorem eq_append_of_takeAll? (h : takeAll? runs t = some (x, rest)) : t = x ++ rest := by
  induction runs generalizing t x with
  | nil =>
    obtain ⟨rfl, rfl⟩ := takeAll?_nil.mp h
    rfl
  | cons r runs ih =>
    obtain ⟨a, b, mid, ha, hb, rfl⟩ := takeAll?_cons.mp h
    rw [take?_append ha, ih hb, List.append_assoc]

theorem takeAll?_letters {letters : List Char} :
    takeAll? (letters.map fun c => one (sameLetter c)) t = some (x, rest) ↔
      t = x ++ rest ∧ lower x = lower letters := by
  induction letters generalizing t x with
  | nil =>
    rw [List.map_nil, takeAll?_nil, lower_nil, lower, List.map_eq_nil_iff]
    constructor
    · rintro ⟨rfl, rfl⟩
      exact ⟨rfl, rfl⟩
    · rintro ⟨rfl, rfl⟩
      exact ⟨rfl, rfl⟩
  | cons l letters ih =>
    simp only [List.map_cons, takeAll?_cons, take?_one, ih]
    constructor
    · rintro ⟨_, b, mid, ⟨c, hc, rfl, rfl⟩, ⟨rfl, hb⟩, rfl⟩
      have hfold : foldLetter l = foldLetter c := by simpa [sameLetter] using hc
      simp [hb, hfold]
    · rintro ⟨rfl, hx⟩
      cases x with
      | nil => simp at hx
      | cons c x =>
        rw [lower_cons, lower_cons, List.cons.injEq] at hx
        exact ⟨[c], x, x ++ rest, ⟨c, by simp [sameLetter, hx.1], rfl, rfl⟩, ⟨rfl, hx.2⟩, rfl⟩

/-- **A word takes itself, in any case of its letters.** -/
theorem takeAll?_word {w : String} :
    takeAll? (word w) t = some (x, rest) ↔ t = x ++ rest ∧ lower x = lower w.toList :=
  takeAll?_letters

end Run

/-! ### Matches -/

theorem Pattern.exists_of_match? {p : Pattern} {t r : Text} {n : Nat}
    (h : p.match? t = some (r, n)) : ∃ name ∈ p.names, ∃ found value mid rest,
      Run.takeAll? name t = some (found, mid) ∧ Run.takeAll? p.value mid = some (value, rest) ∧
      r = p.replacement found ∧ n = found.length + value.length := by
  obtain ⟨name, hname, h⟩ := List.exists_of_findSome?_eq_some h
  simp only [Option.pure_def, Option.bind_eq_bind, Option.bind_eq_some_iff, Option.some.injEq,
    Prod.mk.injEq, Prod.exists] at h
  obtain ⟨found, mid, hfound, value, rest, hvalue, rfl, rfl⟩ := h
  exact ⟨name, hname, found, value, mid, rest, hfound, hvalue, rfl, rfl⟩

theorem Pattern.match?_of_takeAll? {p : Pattern} {name : List Run} (hp : p.names = [name])
    {t found mid value rest : Text} (hfound : Run.takeAll? name t = some (found, mid))
    (hvalue : Run.takeAll? p.value mid = some (value, rest)) :
    p.match? t = some (p.replacement found, found.length + value.length) := by
  simp [match?, hp, hfound, hvalue]

/-! ### Addresses -/

/-- A scheme of the web, in any case. -/
def IsWeb (scheme : Text) : Prop :=
  lower scheme = "http".toList ∨ lower scheme = "https".toList

instance (scheme : Text) : Decidable (IsWeb scheme) :=
  inferInstanceAs (Decidable (_ ∨ _))

/-- A user and a password in an address of the web, of the characters that the pattern looks for. -/
structure WebLogin where
  scheme : Text
  user : Text
  password : Text
  isWeb : IsWeb scheme
  user_ne : user ≠ []
  inUser : ∀ c ∈ user, inUser c = true
  password_ne : password ≠ []
  inPassword : ∀ c ∈ password, inPassword c = true

namespace WebLogin

/-- The user and the password. -/
def pair (l : WebLogin) : Text :=
  l.user ++ ':' :: l.password

/-- The start of the address, up to the `@`. -/
def text (l : WebLogin) : Text :=
  l.scheme ++ "://".toList ++ l.pair ++ ['@']

/-- The start of the address without the user and the password. -/
def masked (l : WebLogin) : Text :=
  l.scheme ++ "://".toList ++ mask ++ ['@']

end WebLogin

theorem isWeb_of_takeAll? {t x rest : Text}
    (h : Run.takeAll? (Run.word "http" ++ [.maybe (sameLetter 's')]) t = some (x, rest)) :
    IsWeb x := by
  obtain ⟨http, _, _, hhttp, hlast, rfl⟩ := Run.takeAll?_append.mp h
  have hlow : lower http = "http".toList := (Run.takeAll?_word.mp hhttp).2
  obtain ⟨s, _, _, hs, hnil, rfl⟩ := Run.takeAll?_cons.mp hlast
  obtain ⟨rfl, -⟩ := Run.takeAll?_nil.mp hnil
  rw [List.append_nil, IsWeb, lower_append, hlow]
  rcases Run.take?_maybe.mp hs with ⟨c, hc, rfl, -⟩ | ⟨rfl, -, -⟩
  · have hfold : foldLetter 's' = foldLetter c := by simpa [sameLetter] using hc
    rw [lower_cons, ← hfold]
    exact .inr (by decide)
  · exact .inl (by decide)

theorem takeAll?_of_isWeb {scheme rest : Text} (hscheme : IsWeb scheme)
    (hrest : ∀ c ∈ rest.head?, sameLetter 's' c = false) :
    Run.takeAll? (Run.word "http" ++ [.maybe (sameLetter 's')]) (scheme ++ rest) =
      some (scheme, rest) := by
  have hlow : lower "http".toList = "http".toList := by decide
  rcases hscheme with h | h
  · have hhttp : Run.takeAll? (Run.word "http") (scheme ++ rest) = some (scheme, rest) :=
      Run.takeAll?_word.mpr ⟨rfl, h.trans hlow.symm⟩
    have hs : (Run.maybe (sameLetter 's')).take? rest = some ([], rest) :=
      Run.take?_maybe.mpr (.inr ⟨rfl, rfl, hrest⟩)
    have hlast : Run.takeAll? [.maybe (sameLetter 's')] rest = some ([], rest) :=
      Run.takeAll?_cons.mpr ⟨[], [], rest, hs, rfl, rfl⟩
    exact Run.takeAll?_append.mpr ⟨scheme, [], rest, hhttp, hlast, by simp⟩
  · obtain ⟨http, s, rfl, hhttp, hs⟩ := List.map_eq_append_iff.mp
      (show scheme.map foldLetter = "http".toList ++ "s".toList from h)
    obtain ⟨c, rfl, hc⟩ := List.map_eq_singleton_iff.mp (show s.map foldLetter = ['s'] from hs)
    have hsame : sameLetter 's' c = true := by
      rw [sameLetter, hc]
      rfl
    have hhttp : Run.takeAll? (Run.word "http") (http ++ [c] ++ rest) = some (http, c :: rest) :=
      Run.takeAll?_word.mpr ⟨by simp, hhttp.trans hlow.symm⟩
    have hs : (Run.maybe (sameLetter 's')).take? (c :: rest) = some ([c], rest) :=
      Run.take?_maybe.mpr (.inl ⟨c, hsame, rfl, rfl⟩)
    have hlast : Run.takeAll? [.maybe (sameLetter 's')] (c :: rest) = some ([c], rest) :=
      Run.takeAll?_cons.mpr ⟨[c], [], rest, hs, rfl, rfl⟩
    exact Run.takeAll?_append.mpr ⟨http, [c], c :: rest, hhttp, hlast, rfl⟩

theorem takeAll?_scheme {t x rest : Text} :
    Run.takeAll? (Run.word "http" ++ [.maybe (sameLetter 's')] ++ Run.word "://") t =
        some (x, rest) ↔
      ∃ scheme, IsWeb scheme ∧ x = scheme ++ "://".toList ∧ t = x ++ rest := by
  constructor
  · intro h
    obtain ⟨scheme, mark, _, hscheme, hmark, rfl⟩ := Run.takeAll?_append.mp h
    obtain rfl : mark = "://".toList := (lower_eq_iff rfl).mp (Run.takeAll?_word.mp hmark).2
    exact ⟨scheme, isWeb_of_takeAll? hscheme, rfl, Run.eq_append_of_takeAll? h⟩
  · rintro ⟨scheme, hscheme, rfl, rfl⟩
    rw [List.append_assoc scheme]
    have hstart : Run.takeAll? _ (scheme ++ ("://".toList ++ rest)) =
        some (scheme, "://".toList ++ rest) := takeAll?_of_isWeb hscheme (by simp; decide)
    have hmark : Run.takeAll? (Run.word "://") ("://".toList ++ rest) =
        some ("://".toList, rest) := Run.takeAll?_word.mpr ⟨rfl, rfl⟩
    exact Run.takeAll?_append.mpr ⟨scheme, _, _, hstart, hmark, rfl⟩

theorem takeAll?_login {t x rest : Text} :
    Run.takeAll? address.value t = some (x, rest) ↔
      ∃ user password, user ≠ [] ∧ (∀ c ∈ user, inUser c = true) ∧ password ≠ [] ∧
        (∀ c ∈ password, inPassword c = true) ∧ x = user ++ ':' :: password ++ ['@'] ∧
        t = x ++ rest := by
  have hmark : ∀ {mark : Char} {t x rest : Text}, (Run.one (· == mark)).take? t = some (x, rest) ↔
      x = [mark] ∧ t = mark :: rest := by
    intro mark t x rest
    simp [Run.take?_one]
  constructor
  · intro h
    obtain ⟨user, _, _, huser, hrest, rfl⟩ := Run.takeAll?_cons.mp h
    obtain ⟨colon, _, _, hcolon, hbehind, rfl⟩ := Run.takeAll?_cons.mp hrest
    obtain ⟨password, _, _, hpassword, hlast, rfl⟩ := Run.takeAll?_cons.mp hbehind
    obtain ⟨sign, _, _, hsign, hnil, rfl⟩ := Run.takeAll?_cons.mp hlast
    obtain ⟨rfl, -⟩ := Run.takeAll?_nil.mp hnil
    obtain ⟨rfl, -⟩ := hmark.mp hcolon
    obtain ⟨rfl, -⟩ := hmark.mp hsign
    obtain ⟨-, hlen, hinUser, -⟩ := Run.take?_many.mp huser
    obtain ⟨-, hlen', hinPassword, -⟩ := Run.take?_many.mp hpassword
    exact ⟨user, password, List.length_pos_iff.mp hlen, hinUser, List.length_pos_iff.mp hlen',
      hinPassword, by simp, Run.eq_append_of_takeAll? h⟩
  · rintro ⟨user, password, huser, hinUser, hpassword, hinPassword, rfl, rfl⟩
    have hsign : (Run.one (· == '@')).take? ('@' :: rest) = some (['@'], rest) :=
      hmark.mpr ⟨rfl, rfl⟩
    have hcolon : (Run.one (· == ':')).take? (':' :: (password ++ '@' :: rest)) =
        some ([':'], password ++ '@' :: rest) := hmark.mpr ⟨rfl, rfl⟩
    have htakePassword : (Run.many 1 inPassword).take? (password ++ '@' :: rest) =
        some (password, '@' :: rest) :=
      Run.take?_many.mpr ⟨rfl, List.length_pos_iff.mpr hpassword, hinPassword, by simp; decide⟩
    have htakeUser : (Run.many 1 inUser).take? (user ++ ':' :: (password ++ '@' :: rest)) =
        some (user, ':' :: (password ++ '@' :: rest)) :=
      Run.take?_many.mpr ⟨rfl, List.length_pos_iff.mpr huser, hinUser, by simp; decide⟩
    have hsplit : user ++ ':' :: password ++ ['@'] ++ rest =
        user ++ ':' :: (password ++ '@' :: rest) := by simp
    rw [hsplit]
    simp [address, Run.takeAll?, htakeUser, hcolon, htakePassword, hsign]

/-- **The pattern of addresses finds the logins of the web**, and nothing else. -/
theorem address_match? {t r : Text} {n : Nat} : address.match? t = some (r, n) ↔
    ∃ l : WebLogin, l.text <+: t ∧ r = l.masked ∧ n = l.text.length := by
  constructor
  · intro h
    obtain ⟨name, hname, found, value, mid, rest, hfound, hvalue, rfl, rfl⟩ :=
      Pattern.exists_of_match? h
    rw [address, List.mem_singleton] at hname
    subst hname
    obtain ⟨scheme, hscheme, rfl, rfl⟩ := takeAll?_scheme.mp hfound
    obtain ⟨user, password, huser, hinUser, hpassword, hinPassword, rfl, rfl⟩ :=
      takeAll?_login.mp hvalue
    let l : WebLogin := ⟨scheme, user, password, hscheme, huser, hinUser, hpassword, hinPassword⟩
    refine ⟨l, ⟨rest, ?_⟩, rfl, ?_⟩
    · simp [l, WebLogin.text, WebLogin.pair]
    · simp [l, WebLogin.text, WebLogin.pair]
      omega
  · rintro ⟨l, ⟨rest, rfl⟩, rfl, rfl⟩
    have htext : l.text = l.scheme ++ "://".toList ++ (l.user ++ ':' :: l.password ++ ['@']) := by
      simp [WebLogin.text, WebLogin.pair]
    have hfound : Run.takeAll? _ (l.text ++ rest) = some (l.scheme ++ "://".toList, _) :=
      takeAll?_scheme.mpr ⟨l.scheme, l.isWeb, rfl, by rw [htext, List.append_assoc]⟩
    have hvalue : Run.takeAll? address.value _ =
        some (l.user ++ ':' :: l.password ++ ['@'], rest) :=
      takeAll?_login.mpr ⟨l.user, l.password, l.user_ne, l.inUser, l.password_ne, l.inPassword,
        rfl, rfl⟩
    rw [Pattern.match?_of_takeAll? rfl hfound hvalue, htext, ← List.length_append]
    rfl

/-! ### What is found and what is put in its place -/

/-- The names behind which a value is a secret, in lower case. -/
def tellingNames : List Text :=
  ["apikey", "api_key", "api-key", "password", "passwd", "pwd", "secret", "token"].map String.toList

/-- The words in front of credentials that prove who asks. -/
def provingWords : List Text :=
  ["Bearer", "Basic"].map String.toList

/-- A text that one of the patterns behind the first finds, and what is put in its place. -/
inductive Masks : Text → Text → Prop
  | value {name value : Text} : lower name ∈ tellingNames →
      Masks (name ++ value) (name ++ '=' :: mask)
  | proof {word value title : Text} {blank : Char} : title ∈ provingWords →
      lower word = lower title → isBlank blank = true →
      Masks (word ++ blank :: value) (title ++ ' ' :: mask)

/-- A text that one of the patterns finds, and what is put in its place. -/
inductive Hides : Text → Text → Prop
  | login (l : WebLogin) : Hides l.text l.masked
  | value {name value : Text} : lower name ∈ tellingNames →
      Hides (name ++ value) (name ++ '=' :: mask)
  | proof {word value title : Text} : title ∈ provingWords → lower word = lower title →
      Hides (word ++ value) (title ++ ' ' :: mask)

theorem Hides.ne_nil {m r : Text} (h : Hides m r) : m ≠ [] := by
  cases h with
  | login l => simp [WebLogin.text]
  | value hname =>
    rintro h
    obtain ⟨rfl, -⟩ := List.append_eq_nil_iff.mp h
    exact absurd hname (by decide)
  | @proof word value title htitle hword =>
    rintro h
    obtain ⟨rfl, -⟩ := List.append_eq_nil_iff.mp h
    have hnil : title = [] := List.map_eq_nil_iff.mp hword.symm
    exact absurd (hnil ▸ htitle) (by decide)

theorem lower_apiKey {t found rest : Text}
    (h : Run.takeAll? (Run.word "api" ++ [.maybe fun c => c == '_' || c == '-'] ++ Run.word "key")
      t = some (found, rest)) : lower found ∈ tellingNames := by
  obtain ⟨_, key, _, hstart, hkey, rfl⟩ := Run.takeAll?_append.mp h
  obtain ⟨api, _, _, hapi, hlast, rfl⟩ := Run.takeAll?_append.mp hstart
  obtain ⟨mark, _, _, hmark, hnil, rfl⟩ := Run.takeAll?_cons.mp hlast
  obtain ⟨rfl, rfl⟩ := Run.takeAll?_nil.mp hnil
  rw [Run.takeAll?_word] at hapi hkey
  rw [lower_append, lower_append, hapi.2, hkey.2]
  rcases Run.take?_maybe.mp hmark with ⟨c, hc, rfl, -⟩ | ⟨rfl, -, -⟩
  · have hc : c = '_' ∨ c = '-' := by simpa using hc
    rcases hc with rfl | rfl
    · decide
    · decide
  · decide

theorem lower_word {words : List String} (hwords : ∀ w ∈ words, lower w.toList ∈ tellingNames)
    {name : List Run} (hname : name ∈ words.map Run.word) {t found rest : Text}
    (h : Run.takeAll? name t = some (found, rest)) : lower found ∈ tellingNames := by
  obtain ⟨w, hw, rfl⟩ := List.mem_map.mp hname
  rw [(Run.takeAll?_word.mp h).2]
  exact hwords w hw

theorem masks_of_assigned {names : List (List Run)} {least : Nat} {accepts : Char → Bool}
    (hnames : ∀ name ∈ names, ∀ t found rest, Run.takeAll? name t = some (found, rest) →
      lower found ∈ tellingNames) {t r : Text} {n : Nat}
    (h : (assigned names least accepts).match? t = some (r, n)) :
    ∃ m z, t = m ++ z ∧ n = m.length ∧ Masks m r := by
  obtain ⟨name, hname, found, value, mid, rest, hfound, hvalue, rfl, rfl⟩ :=
    Pattern.exists_of_match? h
  refine ⟨found ++ value, rest, ?_, by simp, .value (hnames name hname _ _ _ hfound)⟩
  rw [Run.eq_append_of_takeAll? hfound, Run.eq_append_of_takeAll? hvalue, List.append_assoc]

theorem masks_of_proving {word title : String} {value : List Run}
    (htitle : title.toList ∈ provingWords) (hword : lower word.toList = lower title.toList)
    {t r : Text} {n : Nat} (h : (proving word title value).match? t = some (r, n)) :
    ∃ m z, t = m ++ z ∧ n = m.length ∧ Masks m r := by
  obtain ⟨name, hname, found, value, mid, rest, hfound, hvalue, rfl, rfl⟩ :=
    Pattern.exists_of_match? h
  obtain rfl : name = Run.word word := List.mem_singleton.mp hname
  have hlow : lower found = lower title.toList := (Run.takeAll?_word.mp hfound).2.trans hword
  have hmid : mid = value ++ rest := Run.eq_append_of_takeAll? hvalue
  obtain ⟨blanks, more, _, hblanks, -, rfl⟩ := Run.takeAll?_cons.mp hvalue
  obtain ⟨-, hleast, hblank, -⟩ := Run.take?_many.mp hblanks
  obtain ⟨b, blanks, rfl⟩ := List.exists_cons_of_length_pos hleast
  refine ⟨found ++ b :: (blanks ++ more), rest, ?_, by simp,
    .proof htitle hlow (hblank b List.mem_cons_self)⟩
  rw [Run.eq_append_of_takeAll? hfound, hmid]
  simp

/-- **Every match of a pattern behind the first is a value behind a telling name, or credentials
behind a proving word and a blank.** -/
theorem masks_of_match? {p : Pattern} (hp : p ∈ patterns.tail) {t r : Text} {n : Nat}
    (h : p.match? t = some (r, n)) : ∃ m z, t = m ++ z ∧ n = m.length ∧ Masks m r := by
  simp only [patterns, List.tail_cons, List.mem_cons, List.not_mem_nil, or_false] at hp
  rcases hp with rfl | rfl | rfl | rfl | rfl
  · refine masks_of_assigned (fun name hname t found rest hfound => ?_) h
    obtain rfl := List.mem_singleton.mp hname
    exact lower_apiKey hfound
  · have hwords : ∀ w ∈ ["password", "passwd", "pwd"], lower w.toList ∈ tellingNames := by decide
    exact masks_of_assigned (fun name hname t found rest => lower_word hwords hname) h
  · have hwords : ∀ w ∈ ["secret", "token"], lower w.toList ∈ tellingNames := by decide
    exact masks_of_assigned (fun name hname t found rest => lower_word hwords hname) h
  · exact masks_of_proving (by decide) (by decide) h
  · exact masks_of_proving (by decide) (by decide) h

theorem Masks.hides {m r : Text} (h : Masks m r) : Hides m r := by
  cases h with
  | value hname => exact .value hname
  | proof htitle hword _ => exact .proof htitle hword

/-- **Every match of a pattern is a login of the web, a value behind a telling name, or credentials
behind a proving word.** -/
theorem hides_of_match? {p : Pattern} (hp : p ∈ patterns) {t r : Text} {n : Nat}
    (h : p.match? t = some (r, n)) : ∃ m z, t = m ++ z ∧ n = m.length ∧ Hides m r := by
  rcases List.mem_cons.mp hp with rfl | hp
  · obtain ⟨l, ⟨z, rfl⟩, rfl, rfl⟩ := address_match?.mp h
    exact ⟨l.text, z, rfl, rfl, .login l⟩
  · obtain ⟨m, z, rfl, rfl, hmasks⟩ := masks_of_match? hp h
    exact ⟨m, z, rfl, rfl, hmasks.hides⟩

end MetricsBridge.Redaction
