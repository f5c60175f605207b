import MetricsBridge.Proofs.Number.Digits
import MetricsBridge.Proofs.Server.Presentation

/-!
# Reading numbered lists back

A numbered list is read line by line.  The line of an entry starts with a digit, whatever the entry
is, and the one that stands for entries which are left out with a point, so the two cannot be taken
for each other (`not_isMore_numberedLine`).  What is read are the entries that are shown, and how
many there are in all (`readList_numberedList`).  So lists without line breaks in their entries lose
nothing but what they leave out (`numbered_lists_lose_nothing`).
-/
namespace MetricsBridge.Render

/-- The entries that a list shows. -/
def shown (items : List Text) : Option Nat → List Text
  | some n => items.take n
  | none => items

/-- What a list says: the entries that it shows, and how many there are in all. -/
structure Listed where
  entries : List Text
  total : Nat
  deriving DecidableEq, Repr

/-- The line stands for entries which are left out. -/
def IsMore (line : Text) : Prop :=
  "... and ".toList <+: line

instance (line : Text) : Decidable (IsMore line) :=
  inferInstanceAs (Decidable ("... and ".toList <+: line))

/-- What lines say.  Each has an entry behind its number, up to one that has the number of those
which are left out, or an empty one. -/
def readLines : List Text → Listed
  | [] => ⟨[], 0⟩
  | line :: rest =>
    if line = [] then ⟨[], 0⟩
    else if IsMore line then ⟨[], digitsValue ((line.drop 8).takeWhile isDigit)⟩
    else
      let listed := readLines rest
      ⟨(line.dropWhile isDigit).drop 2 :: listed.entries, listed.total + 1⟩

/-- What a list says. -/
def readList (t : Text) : Listed :=
  readLines (Text.splitOn '\n' t)

/-! ### The line of an entry -/

/-- An entry with its number. -/
def numberedLine (n : Nat) (item : Text) : Text :=
  Text.ofNat n ++ ". ".toList ++ item

/-- The lines of entries, with the numbers from `first` on. -/
def numberedLines (first : Nat) : List Text → List Text
  | [] => []
  | item :: rest => numberedLine first item :: numberedLines (first + 1) rest

section Entries

variable {n : Nat} {item line tail : Text} {items lines : List Text}

theorem numberedLine_ne_nil (n : Nat) (item : Text) : numberedLine n item ≠ [] := by
  simp [numberedLine]

/-- **The line of an entry** does not stand for entries which are left out. -/
theorem not_isMore_numberedLine (n : Nat) (item : Text) : ¬ IsMore (numberedLine n item) := by
  intro hmore
  have hne : Text.ofNat n ≠ [] := Nat.toDigits_ne_nil
  obtain ⟨c, digits, hcons⟩ := List.exists_cons_of_ne_nil hne
  have hdigit : isDigit c = true := isDigit_ofNat n c (by rw [hcons]; exact List.mem_cons_self)
  rw [IsMore, numberedLine, hcons] at hmore
  obtain ⟨hpoint, -⟩ := List.cons_prefix_cons.mp hmore
  rw [← hpoint] at hdigit
  exact absurd hdigit (by decide)

/-- The number is known by its digits, and the entry is what follows the point. -/
theorem dropWhile_numberedLine (n : Nat) (item : Text) :
    ((numberedLine n item).dropWhile isDigit).drop 2 = item := by
  have hpoint : ∀ c ∈ (". ".toList ++ item).head?, isDigit c = false := by
    rintro c ⟨⟩
    rfl
  rw [numberedLine, List.append_assoc, Text.dropWhile_run (isDigit_ofNat n) hpoint]
  rfl

theorem readLines_numberedLine (n : Nat) (item : Text) (lines : List Text) :
    readLines (numberedLine n item :: lines) =
      ⟨item :: (readLines lines).entries, (readLines lines).total + 1⟩ := by
  rw [readLines, if_neg (numberedLine_ne_nil n item), if_neg (not_isMore_numberedLine n item),
    dropWhile_numberedLine]

/-- **The entries are read** in front of what the other lines say. -/
theorem readLines_numberedLines (first : Nat) (items lines : List Text) :
    readLines (numberedLines first items ++ lines) =
      ⟨items ++ (readLines lines).entries, items.length + (readLines lines).total⟩ := by
  induction items generalizing first with
  | nil => simp [numberedLines]
  | cons item items ih =>
    rw [numberedLines, List.cons_append, readLines_numberedLine, ih, List.length_cons,
      List.cons_append, Nat.add_right_comm]

theorem not_isMore_of_mem_numberedLines {first : Nat} (h : line ∈ numberedLines first items) :
    ¬ IsMore line := by
  induction items generalizing first with
  | nil => cases h
  | cons item items ih =>
    rcases List.mem_cons.mp h with rfl | h
    · exact not_isMore_numberedLine first item
    · exact ih h

/-- The lines of a list are those of its entries, which have no line breaks in them. -/
theorem splitOn_numberedFrom (first : Nat) (hitems : ∀ t ∈ items, '\n' ∉ t) (tail : Text) :
    Text.splitOn '\n' (numberedFrom first items ++ tail) =
      numberedLines first items ++ Text.splitOn '\n' tail := by
  induction items generalizing first with
  | nil => rfl
  | cons item items ih =>
    obtain ⟨hitem, hitems⟩ := List.forall_mem_cons.mp hitems
    have hline : '\n' ∉ numberedLine first item := by
      intro hmem
      rcases List.mem_append.mp hmem with hmem | hmem
      · rcases List.mem_append.mp hmem with hmem | hmem
        · exact absurd (isDigit_ofNat first _ hmem) (by decide)
        · exact absurd hmem (by decide)
      · exact hitem hmem
    have hcons : numberedFrom first (item :: items) ++ tail =
        numberedLine first item ++ '\n' :: (numberedFrom (first + 1) items ++ tail) :=
      List.append_assoc _ _ _
    rw [hcons, Text.splitOn_append_cons, Text.splitOn_of_not_mem hline, ih _ hitems]
    rfl

end Entries

/-! ### The line of those left out -/

section More

variable {left : Nat} {noun : Text}

/-- A line that stands for entries is followed by nothing. -/
theorem splitOn_moreLine (hleft : left ≠ 0) (hnoun : '\n' ∉ noun) :
    Text.splitOn '\n' (moreLine left noun) =
      ["... and ".toList ++ Text.ofNat left ++ " more ".toList ++ noun, []] := by
  have hline : '\n' ∉ "... and ".toList ++ Text.ofNat left ++ " more ".toList ++ noun := by
    simp only [List.mem_append, not_or]
    refine ⟨⟨⟨by decide, ?_⟩, by decide⟩, hnoun⟩
    intro hmem
    exact absurd (isDigit_ofNat left _ hmem) (by decide)
  rw [moreLine, if_neg hleft, Text.splitOn_append_cons, Text.splitOn_of_not_mem hline]
  rfl

/-- **The number of those left out is read.** -/
theorem readLines_moreLine (left : Nat) (hnoun : '\n' ∉ noun) :
    readLines (Text.splitOn '\n' (moreLine left noun)) = ⟨[], left⟩ := by
  by_cases hleft : left = 0
  · rw [hleft]
    rfl
  · have hblank : ∀ c ∈ (" more ".toList ++ noun).head?, isDigit c = false := by
      rintro c ⟨⟩
      rfl
    have hdigits : (Text.ofNat left ++ (" more ".toList ++ noun)).takeWhile isDigit =
        Text.ofNat left := Text.takeWhile_run (isDigit_ofNat left) hblank
    have hmore : IsMore ("... and ".toList ++ (Text.ofNat left ++ (" more ".toList ++ noun))) :=
      List.prefix_append _ _
    have hne : "... and ".toList ++ (Text.ofNat left ++ (" more ".toList ++ noun)) ≠ [] := by simp
    rw [splitOn_moreLine hleft hnoun, List.append_assoc, List.append_assoc, readLines, if_neg hne,
      if_pos hmore]
    show (⟨[], digitsValue ((Text.ofNat left ++ (" more ".toList ++ noun)).takeWhile isDigit)⟩ :
      Listed) = ⟨[], left⟩
    rw [hdigits, digitsValue_ofNat]

theorem exists_isMore_moreLine_iff (hnoun : '\n' ∉ noun) :
    (∃ line ∈ Text.splitOn '\n' (moreLine left noun), IsMore line) ↔ left ≠ 0 := by
  constructor
  · rintro ⟨line, hline, hmore⟩ hleft
    rw [hleft] at hline
    rw [List.mem_singleton.mp hline] at hmore
    exact absurd hmore (by decide)
  · intro hleft
    rw [splitOn_moreLine hleft hnoun]
    refine ⟨_, List.mem_cons_self, ?_⟩
    rw [List.append_assoc, List.append_assoc]
    exact List.prefix_append _ _

end More

/-! ### Lists -/

section Lists

variable {items : List Text} {noun : Text} {cap : Option Nat}

theorem numberedList_eq (items : List Text) (cap : Option Nat) (noun : Text) :
    numberedList items cap noun = numberedFrom 1 (shown items cap) ++
      moreLine (items.length - (shown items cap).length) noun := by
  cases cap <;> rfl

theorem length_shown_le (items : List Text) (cap : Option Nat) :
    (shown items cap).length ≤ items.length := by
  cases cap with
  | none => exact le_rfl
  | some n => exact List.length_take_le' n items

theorem notMem_of_mem_shown (hitems : ∀ t ∈ items, '\n' ∉ t) :
    ∀ t ∈ shown items cap, '\n' ∉ t := by
  cases cap with
  | none => exact hitems
  | some n => exact fun t ht => hitems t (List.mem_of_mem_take ht)

/-- **Reading a list** finds the entries that are shown, and how many there are. -/
theorem readList_numberedList (hitems : ∀ t ∈ items, '\n' ∉ t) (hnoun : '\n' ∉ noun)
    (cap : Option Nat) :
    readList (numberedList items cap noun) = ⟨shown items cap, items.length⟩ := by
  have hle := length_shown_le items cap
  rw [readList, numberedList_eq, splitOn_numberedFrom 1 (notMem_of_mem_shown hitems),
    readLines_numberedLines, readLines_moreLine _ hnoun, List.append_nil]
  congr 1
  show (shown items cap).length + (items.length - (shown items cap).length) = items.length
  omega

/-- A line stands for entries which are left out exactly if there are any. -/
theorem exists_isMore_iff (hitems : ∀ t ∈ items, '\n' ∉ t) (hnoun : '\n' ∉ noun) :
    (∃ line ∈ Text.splitOn '\n' (numberedList items cap noun), IsMore line) ↔
      (shown items cap).length < items.length := by
  have hleft : (shown items cap).length < items.length ↔
      items.length - (shown items cap).length ≠ 0 := by omega
  rw [hleft, ← exists_isMore_moreLine_iff hnoun, numberedList_eq,
    splitOn_numberedFrom 1 (notMem_of_mem_shown hitems)]
  constructor
  · rintro ⟨line, hline, hmore⟩
    rcases List.mem_append.mp hline with hline | hline
    · exact absurd hmore (not_isMore_of_mem_numberedLines hline)
    · exact ⟨line, hline, hmore⟩
  · rintro ⟨line, hline, hmore⟩
    exact ⟨line, List.mem_append_right _ hline, hmore⟩

end Lists

/-- **Numbered lists lose nothing but what they leave out.**  Let neither the entries nor the noun
have a line break.  Then the text of a list tells the entries that are shown, in order, and how many
there are in all: two lists of one text have as many entries and show the same.  Where there is no
cap, or no more entries than it allows, all entries are shown, and no line stands for others. -/
theorem numbered_lists_lose_nothing {items : List Text} {noun : Text}
    (hitems : ∀ t ∈ items, '\n' ∉ t) (hnoun : '\n' ∉ noun) (cap : Option Nat) :
    readList (numberedList items cap noun) = ⟨shown items cap, items.length⟩ ∧
    (∀ items', (∀ t ∈ items', '\n' ∉ t) →
      numberedList items' cap noun = numberedList items cap noun →
      items'.length = items.length ∧ shown items' cap = shown items cap) ∧
    ((∃ line ∈ Text.splitOn '\n' (numberedList items cap noun), IsMore line) ↔
      ∃ n, cap = some n ∧ n < items.length) ∧
    ((∀ n, cap = some n → items.length ≤ n) → shown items cap = items) := by
  have hread := readList_numberedList hitems hnoun cap
  refine ⟨hread, ?_, ?_, ?_⟩
  · intro items' hitems' heq
    have hread' := readList_numberedList hitems' hnoun cap
    rw [heq, hread, Listed.mk.injEq] at hread'
    exact ⟨hread'.2.symm, hread'.1.symm⟩
  · rw [exists_isMore_iff hitems hnoun]
    cases cap with
    | none => simp [shown]
    | some n => simp [shown]
  · intro hall
    cases cap with
    | none => rfl
    | some n => exact List.take_of_length_le (hall n rfl)

/-- Entries that look like numbered ones, or like the line that stands for others. -/
def lookalikes : List Text :=
  ["2. up".toList, "... and 3 more metrics".toList, "node".toList]

/-- The lookalikes are told from the numbers and from the line in front of which they stand. -/
theorem numbered_lists_lose_nothing_of_lookalikes :
    numberedList lookalikes (some 2) "metrics".toList =
      "1. 2. up\n2. ... and 3 more metrics\n... and 1 more metrics\n".toList ∧
    readList "1. 2. up\n2. ... and 3 more metrics\n... and 1 more metrics\n".toList =
      ⟨["2. up".toList, "... and 3 more metrics".toList], 3⟩ := by
  have htext : numberedList lookalikes (some 2) "metrics".toList =
      "1. 2. up\n2. ... and 3 more metrics\n... and 1 more metrics\n".toList := by
    decide +kernel
  have hitems : ∀ t ∈ lookalikes, '\n' ∉ t := by simp [lookalikes]
  have hnoun : '\n' ∉ "metrics".toList := by decide
  have hread := (numbered_lists_lose_nothing hitems hnoun (some 2)).1
  rw [htext] at hread
  exact ⟨htext, hread⟩

end MetricsBridge.Render
