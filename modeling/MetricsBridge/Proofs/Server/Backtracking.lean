import Mathlib
import MetricsBridge.Proofs.Server.Matching

/-!
# Searching with backtracking

A pattern is a regular expression, and a search for one gives each run the longest text first and
comes back to a shorter one where the runs behind it find nothing.  `Pattern.ways` lists all that
such a search can find at the start of a text, in the order in which it is tried.  The patterns take
runs without ever coming back.  Each of them is `Run.Determined`, and so it finds what the search
finds (`Pattern.head?_ways`).
-/
namespace MetricsBridge.Redaction

namespace Run

variable {r : Run} {runs runs' : List Run} {c : Char} {t x y z rest : Text}

/-! ### The texts that runs read -/

/-- The run may be this text. -/
structure Fits (r : Run) (x : Text) : Prop where
  accepted : ∀ c ∈ x, r.accepts c = true
  least : r.least ≤ x.length
  most : ∀ n ∈ r.most, x.length ≤ n

theorem fits_iff : r.Fits x ↔
    (∀ c ∈ x, r.accepts c = true) ∧ r.least ≤ x.length ∧ ∀ n ∈ r.most, x.length ≤ n :=
  ⟨fun h => ⟨h.accepted, h.least, h.most⟩, fun h => ⟨h.1, h.2.1, h.2.2⟩⟩

instance (r : Run) (x : Text) : Decidable (r.Fits x) :=
  decidable_of_iff _ fits_iff.symm

/-- The runs, one after the other, may be this text. -/
def Reads : List Run → Text → Prop
  | [], x => x = []
  | r :: runs, x => ∃ y z, x = y ++ z ∧ r.Fits y ∧ Reads runs z

theorem reads_append : Reads (runs ++ runs') x ↔
    ∃ y z, x = y ++ z ∧ Reads runs y ∧ Reads runs' z := by
  induction runs generalizing x with
  | nil => simp [Reads]
  | cons r runs ih =>
    simp only [List.cons_append, Reads, ih]
    constructor
    · rintro ⟨a, _, rfl, ha, b, d, rfl, hb, hd⟩
      exact ⟨a ++ b, d, by simp, ⟨a, b, rfl, ha, hb⟩, hd⟩
    · rintro ⟨_, d, rfl, ⟨a, b, rfl, ha, hb⟩, hd⟩
      exact ⟨a, b ++ d, by simp, ha, b, d, rfl, hb, hd⟩

/-- Runs that may all be left out read nothing. -/
theorem reads_nil (h : ∀ s ∈ runs, s.least = 0) : Reads runs [] := by
  induction runs with
  | nil => rfl
  | cons r runs ih =>
    have hfits : r.Fits [] := ⟨by simp, by simp [h r List.mem_cons_self], by simp⟩
    exact ⟨[], [], rfl, hfits, ih fun s hs => h s (List.mem_cons_of_mem r hs)⟩

theorem Reads.sum_le (h : Reads runs x) : (runs.map Run.least).sum ≤ x.length := by
  induction runs generalizing x with
  | nil => simp
  | cons r runs ih =>
    obtain ⟨a, b, rfl, ha, hb⟩ := h
    rw [List.map_cons, List.sum_cons, List.length_append]
    exact Nat.add_le_add ha.least (ih hb)

theorem Reads.notMem (h : Reads runs x) (hc : ∀ r ∈ runs, r.accepts c = false) : c ∉ x := by
  induction runs generalizing x with
  | nil =>
    obtain rfl : x = [] := h
    exact List.not_mem_nil
  | cons r runs ih =>
    obtain ⟨a, b, rfl, ha, hb⟩ := h
    rw [List.forall_mem_cons] at hc
    rw [List.mem_append, not_or]
    refine ⟨fun hca => ?_, ih hb hc.2⟩
    simpa [hc.1] using ha.accepted c hca

theorem Reads.accepts_last {least : Nat} {accepts : Char → Bool} (hleast : 0 < least)
    (h : Reads (runs ++ [many least accepts]) (x ++ [c])) : accepts c = true := by
  obtain ⟨a, b, hab, -, b', e, rfl, hb, rfl⟩ := reads_append.mp h
  rw [List.append_nil] at hab
  obtain ⟨b, d, rfl⟩ : ∃ b d, b' = b ++ [d] :=
    (List.eq_nil_or_concat' b').resolve_left
      (List.length_pos_iff.mp (hleast.trans_le hb.least))
  rw [← List.append_assoc] at hab
  obtain ⟨-, hcd⟩ := List.append_inj' hab rfl
  obtain rfl : c = d := by simpa using hcd
  exact hb.accepted c (by simp)

theorem lower_of_reads_word {w : String} (h : Reads (word w) x) : lower x = lower w.toList := by
  unfold word at h
  generalize w.toList = letters at h ⊢
  induction letters generalizing x with
  | nil =>
    obtain rfl : x = [] := h
    rfl
  | cons l letters ih =>
    obtain ⟨a, b, rfl, ha, hb⟩ := h
    obtain ⟨c, rfl⟩ : ∃ c, a = [c] :=
      List.length_eq_one_iff.mp (le_antisymm (ha.most 1 rfl) ha.least)
    have hc : foldLetter l = foldLetter c := by
      simpa [one, sameLetter] using ha.accepted c List.mem_cons_self
    rw [lower_append, lower_cons, lower_cons, ih hb, hc]
    rfl

/-! ### All that a run may take -/

/-- The starts of a text and what they leave, the longest first. -/
def splits : Text → List (Text × Text)
  | [] => [([], [])]
  | c :: t => (splits t).map (fun a => (c :: a.1, a.2)) ++ [([], c :: t)]

theorem mem_splits : (x, rest) ∈ splits t ↔ t = x ++ rest := by
  induction t generalizing x with
  | nil => simp [splits, eq_comm]
  | cons c t ih =>
    cases x with
    | nil => simp [splits, eq_comm]
    | cons d x => simp [splits, ih, and_comm]

theorem pairwise_splits (t : Text) :
    (splits t).Pairwise fun a b => b.1.length < a.1.length := by
  induction t with
  | nil => simp [splits]
  | cons c t ih =>
    rw [splits, List.pairwise_append, List.pairwise_map]
    refine ⟨ih.imp fun h => Nat.succ_lt_succ h, List.pairwise_singleton _ _, ?_⟩
    intro a ha b hb
    obtain ⟨a', -, rfl⟩ := List.mem_map.mp ha
    obtain rfl := List.mem_singleton.mp hb
    exact Nat.succ_pos _

/-- All that the run may take from the start of a text, and what it leaves, the longest first. -/
def options (r : Run) (t : Text) : List (Text × Text) :=
  (splits t).filter fun a => r.Fits a.1

theorem mem_options : (x, rest) ∈ r.options t ↔ t = x ++ rest ∧ r.Fits x := by
  simp [options, mem_splits]

theorem pairwise_options (r : Run) (t : Text) :
    (r.options t).Pairwise fun a b => b.1.length < a.1.length :=
  (pairwise_splits t).filter _

/-- A shorter choice gives back a character that the run accepts. -/
theorem accepts_of_shorter (hx : r.Fits x) (h : x ++ rest = y ++ z) (hlt : y.length < x.length) :
    ∃ c z', z = c :: z' ∧ r.accepts c = true := by
  obtain ⟨k, rfl⟩ : y <+: x :=
    List.prefix_of_prefix_length_le ⟨z, h.symm⟩ (List.prefix_append x rest) hlt.le
  cases k with
  | nil => simp at hlt
  | cons c k =>
    have hz : c :: (k ++ rest) = z := by simpa using h
    exact ⟨c, k ++ rest, hz.symm, hx.accepted c (by simp)⟩

theorem fits_of_take? (h : r.take? t = some (x, rest)) : r.Fits x := by
  unfold take? at h
  dsimp only at h
  split_ifs at h with hleast
  rw [Option.some.injEq, Prod.mk.injEq] at h
  obtain ⟨rfl, -⟩ := h
  refine ⟨fun c hc => List.mem_takeWhile_imp hc, hleast, fun n hn => ?_⟩
  rw [Option.mem_def] at hn
  rw [hn]
  exact (List.takeWhile_prefix _).length_le.trans (by simp)

/-- What fits is taken, or something longer is. -/
theorem exists_take?_of_fits (h : r.Fits y) :
    ∃ x rest, r.take? (y ++ z) = some (x, rest) ∧ y.length ≤ x.length := by
  have hlong : ∀ room, y <+: room → y.length ≤ (room.takeWhile r.accepts).length := by
    rintro _ ⟨k, rfl⟩
    rw [List.takeWhile_append_of_pos h.accepted, List.length_append]
    omega
  cases hmost : r.most with
  | none =>
    have hle := hlong (y ++ z) (List.prefix_append y z)
    refine ⟨_, (y ++ z).drop ((y ++ z).takeWhile r.accepts).length, ?_, hle⟩
    rw [take?, hmost]
    exact if_pos (h.least.trans hle)
  | some n =>
    have hle := hlong ((y ++ z).take n)
      (List.prefix_take_iff.mpr ⟨List.prefix_append y z, h.most n hmost⟩)
    refine ⟨_, (y ++ z).drop (((y ++ z).take n).takeWhile r.accepts).length, ?_, hle⟩
    rw [take?, hmost]
    exact if_pos (h.least.trans hle)

/-- **A run takes the first of its choices.** -/
theorem take?_eq_head? (r : Run) (t : Text) : r.take? t = (r.options t).head? := by
  cases hl : r.options t with
  | nil =>
    rw [List.head?_nil, Option.eq_none_iff_forall_ne_some]
    rintro ⟨x, rest⟩ h
    have hmem : (x, rest) ∈ r.options t := mem_options.mpr ⟨take?_append h, fits_of_take? h⟩
    simp [hl] at hmem
  | cons a l =>
    obtain ⟨y, z⟩ := a
    obtain ⟨rfl, hy⟩ := mem_options.mp (hl ▸ List.mem_cons_self : (y, z) ∈ r.options t)
    obtain ⟨x, rest, h, hle⟩ := exists_take?_of_fits (z := z) hy
    have hmem : (x, rest) ∈ (y, z) :: l :=
      hl ▸ mem_options.mpr ⟨take?_append h, fits_of_take? h⟩
    rcases List.mem_cons.mp hmem with heq | hmem
    · rw [h, heq, List.head?_cons]
    · have hsorted := pairwise_options r (y ++ z)
      rw [hl] at hsorted
      have hlt : x.length < y.length := List.rel_of_pairwise_cons hsorted hmem
      omega

theorem reads_of_takeAll? {t rest : Text} (h : takeAll? runs t = some (x, rest)) :
    Reads runs x := by
  induction runs generalizing t x with
  | nil => exact (takeAll?_nil.mp h).1
  | cons r runs ih =>
    obtain ⟨a, b, mid, ha, hb, rfl⟩ := takeAll?_cons.mp h
    exact ⟨a, b, rfl, fits_of_take? ha, ih hb⟩

/-! ### All that runs may take -/

/-- All that runs may take one after the other from the start of a text, and what they leave, in
the order in which a search with backtracking finds it. -/
def ways : List Run → Text → List (Text × Text)
  | [], t => [([], t)]
  | r :: runs, t => (r.options t).flatMap fun a =>
      (ways runs a.2).map fun b => (a.1 ++ b.1, b.2)

/-- **The search leaves no reading out.** -/
theorem mem_ways : (x, rest) ∈ ways runs t ↔ t = x ++ rest ∧ Reads runs x := by
  induction runs generalizing x rest t with
  | nil =>
    simp only [ways, Reads, List.mem_singleton, Prod.mk.injEq]
    constructor
    · rintro ⟨rfl, rfl⟩
      exact ⟨rfl, rfl⟩
    · rintro ⟨rfl, rfl⟩
      exact ⟨rfl, rfl⟩
  | cons r runs ih =>
    simp only [ways, Reads, List.mem_flatMap, List.mem_map, Prod.exists, Prod.mk.injEq,
      mem_options, ih]
    constructor
    · rintro ⟨a, _, ⟨rfl, ha⟩, b, _, ⟨rfl, hb⟩, rfl, rfl⟩
      exact ⟨by simp, a, b, rfl, ha, hb⟩
    · rintro ⟨rfl, a, b, rfl, ha, hb⟩
      exact ⟨a, b ++ rest, ⟨by simp, ha⟩, b, rest, ⟨rfl, hb⟩, rfl, rfl⟩

/-- No reading of the runs is empty or starts with the character. -/
def Rejects (c : Char) : List Run → Prop
  | [] => False
  | r :: runs => r.accepts c = false ∧ (0 < r.least ∨ Rejects c runs)

theorem Rejects.exists_cons (h : Rejects c runs) (hx : Reads runs x) :
    ∃ d x', x = d :: x' ∧ d ≠ c := by
  induction runs generalizing x with
  | nil => exact h.elim
  | cons r runs ih =>
    obtain ⟨y, z, rfl, hy, hz⟩ := hx
    cases y with
    | nil =>
      have hleast : ¬ 0 < r.least := by simpa using hy.least
      exact ih (h.2.resolve_left hleast) hz
    | cons d y =>
      refine ⟨d, y ++ z, rfl, ?_⟩
      rintro rfl
      have hd := hy.accepted d List.mem_cons_self
      simp [h.1] at hd

theorem ways_eq_nil_of_rejects (h : Rejects c runs) : ways runs (c :: t) = [] := by
  rw [List.eq_nil_iff_forall_not_mem]
  rintro ⟨x, rest⟩ hx
  obtain ⟨heq, hreads⟩ := mem_ways.mp hx
  obtain ⟨d, x, rfl, hd⟩ := h.exists_cons hreads
  exact hd (List.cons.inj heq).1.symm

theorem ways_ne_nil_of_optional (h : ∀ s ∈ runs, s.least = 0) : ways runs t ≠ [] :=
  List.ne_nil_of_mem (mem_ways.mpr ⟨(List.nil_append t).symm, reads_nil h⟩)

/-- A search comes back to no run in vain: the run has one length only, or what follows is never
missing, or what follows cannot start with what the run would give back. -/
def Determined : List Run → Prop
  | [] => True
  | r :: runs => (r.most = some r.least ∨ (∀ s ∈ runs, s.least = 0) ∨
      ∀ c, r.accepts c = true → Rejects c runs) ∧ Determined runs

/-- **Runs that are determined need no backtracking.** -/
theorem head?_ways (h : Determined runs) (t : Text) : (ways runs t).head? = takeAll? runs t := by
  induction runs generalizing t with
  | nil => rfl
  | cons r runs ih =>
    obtain ⟨hr, hruns⟩ := h
    rw [ways, takeAll?, take?_eq_head?, List.head?_flatMap]
    cases hl : r.options t with
    | nil => rfl
    | cons a l =>
      obtain ⟨x, rest⟩ := a
      obtain ⟨rfl, hx⟩ := mem_options.mp (hl ▸ List.mem_cons_self : (x, rest) ∈ r.options t)
      have hfirst : ((ways runs rest).map fun b => (x ++ b.1, b.2)).head? =
          (takeAll? runs rest).bind fun b => some (x ++ b.1, b.2) := by
        rw [List.head?_map, ih hruns]
        cases takeAll? runs rest with
        | none => rfl
        | some b => rfl
      -- behind the first choice there is nothing more to find, if that one finds nothing
      have hlater : ∀ a ∈ l, (ways runs rest = [] → ways runs a.2 = []) := by
        rintro ⟨y, z⟩ hmem hnil
        have hsorted := pairwise_options r (x ++ rest)
        rw [hl] at hsorted
        have hlt : y.length < x.length := List.rel_of_pairwise_cons hsorted hmem
        obtain ⟨heq, hy⟩ := mem_options.mp (hl ▸ List.mem_cons_of_mem _ hmem :
          (y, z) ∈ r.options (x ++ rest))
        rcases hr with hone | hoptional | hrejects
        · have hxn := hx.most _ hone
          have hyn := hy.least
          omega
        · exact absurd hnil (ways_ne_nil_of_optional hoptional)
        · obtain ⟨c, z, rfl, hc⟩ := accepts_of_shorter hx heq hlt
          exact ways_eq_nil_of_rejects (hrejects c hc)
      rw [List.findSome?_cons, hfirst]
      cases htake : takeAll? runs rest with
      | some b => simp [htake]
      | none =>
        have hnil : ways runs rest = [] := by
          rw [← List.head?_eq_none_iff, ih hruns, htake]
        have hnone : ∀ a ∈ l, ((ways runs a.2).map fun b => (a.1 ++ b.1, b.2)).head? = none := by
          intro a ha
          rw [hlater a ha hnil]
          rfl
        simpa [htake] using hnone

/-! ### Runs that are determined -/

theorem determined_word {w : String} : Determined (word w ++ runs) ↔ Determined runs := by
  unfold word
  induction w.toList with
  | nil => rfl
  | cons l letters ih =>
    rw [List.map_cons, List.cons_append, Determined, ih]
    exact and_iff_right (.inl rfl)

theorem determined_nil : Determined [] := trivial

/-- What follows a run that does not start with its characters leaves it no choice. -/
theorem Determined.cons (h : Determined runs) (hr : ∀ c, r.accepts c = true → Rejects c runs) :
    Determined (r :: runs) :=
  ⟨.inr (.inr hr), h⟩

theorem Determined.cons_one {accepts : Char → Bool} (h : Determined runs) :
    Determined (one accepts :: runs) :=
  ⟨.inl rfl, h⟩

/-- Runs behind which nothing is missing. -/
theorem Determined.cons_optional (h : Determined runs) (hr : ∀ s ∈ runs, s.least = 0) :
    Determined (r :: runs) :=
  ⟨.inr (.inl hr), h⟩

theorem sameLetter_of_sameLetter {a b : Char} (h : sameLetter a c = true)
    (hab : sameLetter a b = false) : sameLetter b c = false := by
  simp only [sameLetter, beq_iff_eq, beq_eq_false_iff_ne] at h hab ⊢
  rw [← h]
  exact hab.symm

theorem takeAll?_append_eq : takeAll? (runs ++ runs') t = (do
    let (taken, t) ← takeAll? runs t
    let (more, t) ← takeAll? runs' t
    return (taken ++ more, t)) := by
  apply Option.ext
  rintro ⟨x, rest⟩
  simp only [takeAll?_append, Option.pure_def, Option.bind_eq_bind, Option.bind_eq_some_iff,
    Option.some.injEq, Prod.mk.injEq, Prod.exists]
  constructor
  · rintro ⟨a, b, mid, ha, hb, rfl⟩
    exact ⟨a, mid, ha, b, rest, hb, rfl, rfl⟩
  · rintro ⟨a, mid, ha, b, _, hb, rfl, rfl⟩
    exact ⟨a, b, mid, ha, hb, rfl⟩

end Run

open Run

theorem separator_of_blank {c : Char} (h : isBlank c = true) : (c == ':' || c == '=') = false := by
  have hcolon : c ≠ ':' := ne_of_blank h rfl
  have hequals : c ≠ '=' := ne_of_blank h rfl
  simp [hcolon, hequals]

theorem quote_of_blank {c : Char} (h : isBlank c = true) : (c == '\'' || c == '"') = false := by
  have hsingle : c ≠ '\'' := ne_of_blank h rfl
  have hdouble : c ≠ '"' := ne_of_blank h rfl
  simp [hsingle, hdouble]

/-- A character of a password behind its name. -/
def inSecret (c : Char) : Bool :=
  !(isBlank c || c == '\'' || c == '"')

/-- A character of a token behind the word `bearer`. -/
def inToken (c : Char) : Bool :=
  isKeyChar c || c == '.'

/-- A character of the user and the password behind the word `basic`. -/
def inBase64 (c : Char) : Bool :=
  isWordChar c || c == '+' || c == '/'

theorem inSecret_of_blank {c : Char} (h : isBlank c = true) : inSecret c = false := by
  simp [inSecret, h]

theorem inToken_of_blank {c : Char} (h : isBlank c = true) : inToken c = false := by
  have hpoint : c ≠ '.' := ne_of_blank h rfl
  simp [inToken, isKeyChar_of_blank h, hpoint]

theorem inBase64_of_blank {c : Char} (h : isBlank c = true) : inBase64 c = false := by
  have hplus : c ≠ '+' := ne_of_blank h rfl
  have hslash : c ≠ '/' := ne_of_blank h rfl
  simp [inBase64, isWordChar_of_blank h, hplus, hslash]

/-- What is assigned is determined, if neither blanks nor quotes are characters of the value. -/
theorem determined_assigned {least : Nat} {accepts : Char → Bool} (hleast : 0 < least)
    (hblank : ∀ c, isBlank c = true → accepts c = false)
    (hquote : ∀ c, (c == '\'' || c == '"') = true → accepts c = false) :
    Determined (assignment ++ [quoteMark, .many least accepts, quoteMark]) := by
  have hend : Determined [quoteMark] := determined_nil.cons_optional (by simp)
  have hvalue : Determined [.many least accepts, quoteMark] :=
    .cons_optional hend (by simp [quoteMark, maybe])
  have hquoted : Determined [quoteMark, .many least accepts, quoteMark] :=
    hvalue.cons fun c hc => ⟨hquote c hc, .inl hleast⟩
  have hbehind : Determined [.many 0 isBlank, quoteMark, .many least accepts, quoteMark] :=
    hquoted.cons fun c hc => ⟨quote_of_blank hc, .inr ⟨hblank c hc, .inl hleast⟩⟩
  exact hbehind.cons_one.cons fun c hc => ⟨separator_of_blank hc, .inl Nat.one_pos⟩

/-- Credentials are determined, if no blank is a character of theirs. -/
theorem determined_proving {least : Nat} {accepts : Char → Bool} {ends : List Run}
    (hleast : 0 < least) (hblank : ∀ c, isBlank c = true → accepts c = false)
    (hends : Determined ends) (hoptional : ∀ s ∈ ends, s.least = 0) :
    Determined (.many 1 isBlank :: .many least accepts :: ends) :=
  (hends.cons_optional hoptional).cons fun c hc => ⟨hblank c hc, .inl hleast⟩

theorem determined_address : ∀ name ∈ address.names, Determined (name ++ address.value) := by
  have huser : ∀ c, inUser c = true → (c == ':') = false := by
    intro c hc
    by_contra h
    obtain rfl : c = ':' := by simpa using h
    exact absurd hc (by decide)
  have hpassword : ∀ c, inPassword c = true → (c == '@') = false := by
    intro c hc
    by_contra h
    obtain rfl : c = '@' := by simpa using h
    exact absurd hc (by decide)
  have hsecret : Determined [.many 1 inPassword, .one (· == '@')] :=
    (determined_nil.cons_one).cons fun c hc => ⟨hpassword c hc, .inl Nat.one_pos⟩
  have hvalue : Determined address.value :=
    hsecret.cons_one.cons fun c hc => ⟨huser c hc, .inl Nat.one_pos⟩
  intro name hname
  obtain rfl := List.mem_singleton.mp hname
  rw [List.append_assoc, List.append_assoc, determined_word]
  refine (determined_word.mpr hvalue).cons fun c hc => ⟨?_, .inl Nat.one_pos⟩
  exact sameLetter_of_sameLetter hc (by decide)

theorem determined_apiKey : ∀ name ∈ apiKey.names, Determined (name ++ apiKey.value) := by
  have hvalue : Determined apiKey.value :=
    determined_assigned (by decide) (fun c => isKeyChar_of_blank) (by simp; decide)
  intro name hname
  obtain rfl := List.mem_singleton.mp hname
  rw [List.append_assoc, List.append_assoc, determined_word]
  refine (determined_word.mpr hvalue).cons fun c hc => ⟨?_, .inl Nat.one_pos⟩
  have hmark : c = '_' ∨ c = '-' := by simpa [maybe] using hc
  rcases hmark with rfl | rfl
  · decide
  · decide

/-- Names that are words do not matter. -/
theorem determined_words (words : List String) {value : List Run} (h : Determined value) :
    ∀ name ∈ words.map word, Determined (name ++ value) := by
  intro name hname
  obtain ⟨w, -, rfl⟩ := List.mem_map.mp hname
  exact determined_word.mpr h

/-- **No pattern needs backtracking.** -/
theorem determined_patterns : ∀ p ∈ patterns, ∀ name ∈ p.names, Determined (name ++ p.value) := by
  intro p hp
  simp only [patterns, List.mem_cons, List.not_mem_nil, or_false] at hp
  rcases hp with rfl | rfl | rfl | rfl | rfl | rfl
  · exact determined_address
  · exact determined_apiKey
  · have hquote : ∀ c, (c == '\'' || c == '"') = true → inSecret c = false := by
      intro c hc
      rw [inSecret, Bool.or_assoc, hc, Bool.or_true]
      rfl
    exact determined_words ["password", "passwd", "pwd"]
      (determined_assigned (by decide) (fun c => inSecret_of_blank) hquote)
  · exact determined_words ["secret", "token"]
      (determined_assigned (by decide) (fun c => isKeyChar_of_blank) (by simp; decide))
  · exact determined_words ["bearer"]
      (determined_proving (by decide) (fun c => inToken_of_blank) determined_nil (by simp))
  · exact determined_words ["basic"] (determined_proving (by decide) (fun c => inBase64_of_blank)
      (determined_nil.cons_optional (by simp)) (by simp))

/-! ### What a search finds -/

namespace Pattern

variable {p : Pattern} {t m b r : Text} {n : Nat}

/-- All that the pattern may take from the start of a text, and what it leaves, in the order in
which a search with backtracking finds it: the names one after the other, and for each run the
longest text first. -/
def ways (p : Pattern) (t : Text) : List (Text × Text) :=
  p.names.flatMap fun name => Run.ways (name ++ p.value) t

/-- In front of `b`, the search finds `m` first. -/
def Finds (p : Pattern) (m b : Text) : Prop :=
  (p.ways (m ++ b)).head? = some (m, b)

instance (p : Pattern) (m b : Text) : Decidable (p.Finds m b) :=
  inferInstanceAs (Decidable (_ = _))

theorem mem_ways : (m, b) ∈ p.ways t ↔
    t = m ++ b ∧ ∃ name ∈ p.names, Reads (name ++ p.value) m := by
  simp only [ways, List.mem_flatMap, Run.mem_ways]
  constructor
  · rintro ⟨name, hname, rfl, hreads⟩
    exact ⟨rfl, name, hname, hreads⟩
  · rintro ⟨rfl, name, hname, hreads⟩
    exact ⟨name, hname, rfl, hreads⟩

/-- **A pattern finds what the search with backtracking finds first**, and nothing where that finds
nothing. -/
theorem head?_ways (hp : p ∈ patterns) (t : Text) :
    (p.ways t).head?.map (fun a => a.1.length) = (p.match? t).map Prod.snd := by
  have hname : ∀ name ∈ p.names, (Run.ways (name ++ p.value) t).head?.map (fun a => a.1.length) =
      (do
        let (found, rest) ← takeAll? name t
        let (value, _) ← takeAll? p.value rest
        return (p.replacement found, found.length + value.length)).map Prod.snd := by
    intro name hname
    rw [Run.head?_ways (determined_patterns p hp name hname), takeAll?_append_eq]
    cases takeAll? name t with
    | none => rfl
    | some found =>
      dsimp
      cases takeAll? p.value found.2 with
      | none => rfl
      | some value => simp
  rw [ways, List.head?_flatMap, match?, List.map_findSome?, List.map_findSome?,
    ← List.head?_filterMap, ← List.head?_filterMap]
  exact congrArg List.head? (List.filterMap_congr hname)

theorem match?_eq_none_iff (hp : p ∈ patterns) : p.match? t = none ↔ p.ways t = [] := by
  rw [← List.head?_eq_none_iff, ← Option.map_eq_none_iff (f := Prod.snd), ← head?_ways hp,
    Option.map_eq_none_iff]

/-- The search finds what the pattern takes. -/
theorem finds_iff (hp : p ∈ patterns) :
    p.Finds m b ↔ ∃ r, p.match? (m ++ b) = some (r, m.length) := by
  constructor
  · intro h
    have hfound : (p.match? (m ++ b)).map Prod.snd = some m.length := by
      rw [← head?_ways hp, h]
      rfl
    obtain ⟨⟨r, n⟩, hmatch, rfl⟩ := Option.map_eq_some_iff.mp hfound
    exact ⟨r, hmatch⟩
  · rintro ⟨r, hmatch⟩
    have hfound := head?_ways hp (m ++ b)
    rw [hmatch] at hfound
    obtain ⟨⟨x, rest⟩, hhead, hlen⟩ := Option.map_eq_some_iff.mp hfound
    obtain ⟨heq, -⟩ := mem_ways.mp (List.mem_of_head? hhead)
    obtain ⟨rfl, rfl⟩ := List.append_inj heq hlen.symm
    exact hhead

/-- Where the text starts with a reading of the pattern, the pattern finds something. -/
theorem match?_ne_none_of_reads (hp : p ∈ patterns) {name : List Run} (hname : name ∈ p.names)
    {x : Text} (h : Reads (name ++ p.value) x) (z : Text) : p.match? (x ++ z) ≠ none := by
  rw [Ne, match?_eq_none_iff hp]
  exact List.ne_nil_of_mem (mem_ways.mpr ⟨rfl, name, hname, h⟩)

end Pattern

end MetricsBridge.Redaction
