import Mathlib.Tactic.SplitIfs
import MetricsBridge.Proofs.Json.Readable
import MetricsBridge.Proofs.Json.Scalar
import MetricsBridge.Proofs.Json.Skip

/-!
# Reading back what has been written

Reading inverts the pretty form of every value that can be read (`parse_pretty`), if it does so for
the binary64 numbers in it.  The induction is on the value; what it carries is that the pretty form
is read as the value in front of any text (`IsReadBack`), at any indentation.
-/
namespace MetricsBridge.Json

namespace Cursor

variable {cur next : Cursor} {c : Char} {t more : Text} {steps depth : Nat} {isFirst : Bool}

/-! ### Between the tokens -/

theorem isSpace_of_mem_newline {k : Nat} : ∀ c ∈ newline k, isSpace c = true := by
  refine List.forall_mem_cons.mpr ⟨rfl, fun c hc => ?_⟩
  rw [List.eq_of_mem_replicate hc]
  rfl

theorem length_newline (k : Nat) : (newline k).length = 2 * k + 1 := by
  rw [newline, List.length_cons, List.length_replicate]

/-- The indentation of a line is passed over. -/
theorem rest_skipSpaces_of_newline {k : Nat} (hcur : cur.rest = newline k ++ c :: t)
    (hc : isSpace c = false) : cur.skipSpaces.rest = c :: t := by
  rw [rest_skipSpaces, hcur, List.dropWhile_append_of_pos isSpace_of_mem_newline]
  exact List.dropWhile_cons_of_neg (Bool.not_eq_true _ ▸ hc)

theorem endsNumber_newline (k : Nat) (t : Text) : EndsNumber (newline k ++ t) := by
  intro c rest h
  cases h
  decide

theorem endsNumber_comma (t : Text) : EndsNumber (',' :: t) := by
  intro c rest h
  cases h
  decide

theorem colon_of_cons (hcur : cur.rest = ':' :: t) : cur.colon = .ok (cur.ahead 1 t) := by
  rw [colon, skipSpaces_of_not_space hcur rfl, hcur]
  rfl

theorem rest_skipOne (hcur : cur.rest = c :: t) : cur.skipOne.rest = t := by
  rw [skipOne, hcur]
  exact rest_past cur c t

/-! ### Items -/

/-- The items of an array behind the first. -/
def laterItems (k : Nat) (its : List Json) : Text :=
  its.flatMap fun item => ',' :: (newline k ++ prettyAt k item)

theorem prettyItems_cons (k : Nat) (item : Json) (its : List Json) :
    prettyItems k (item :: its) = newline k ++ prettyAt k item ++ laterItems k its := by
  induction its generalizing item with
  | nil => rw [prettyItems, laterItems, List.flatMap_nil, List.append_nil]
  | cons second its ih =>
    rw [prettyItems, ih second, laterItems, laterItems, List.flatMap_cons]
    · rfl
    · exact List.cons_ne_nil second its

theorem endsNumber_laterItems (k : Nat) (its : List Json) (outer : Nat) (t : Text) :
    EndsNumber (laterItems k its ++ (newline outer ++ t)) := by
  cases its with
  | nil => exact endsNumber_newline outer t
  | cons item its => exact endsNumber_comma _

/-- A value is written with a first character that is no space and closes nothing. -/
theorem exists_cons_prettyAt (k : Nat) (j : Json) :
    ∃ c t, prettyAt k j = c :: t ∧ isSpace c = false ∧ c ≠ ']' := by
  cases j with
  | null => exact ⟨_, _, rfl, by decide⟩
  | bool b => cases b <;> exact ⟨_, _, rfl, by decide⟩
  | text t => exact ⟨_, _, rfl, by decide⟩
  | array its => cases its <;> exact ⟨_, _, rfl, by decide⟩
  | object fs => cases fs <;> exact ⟨_, _, rfl, by decide⟩
  | number n =>
    rw [prettyAt]
    cases hn : n.render with
    | nil => exact absurd hn (render_ne_nil n)
    | cons c t =>
      have hc : Numeral.isMark c = true := isMark_of_mem_render n c (hn ▸ List.mem_cons_self)
      refine ⟨c, t, rfl, isSpace_of_isMark hc, ?_⟩
      rintro rfl
      exact absurd hc (by decide)

theorem rest_skipSpaces_of_item {k : Nat} {item : Json}
    (hcur : cur.rest = newline k ++ (prettyAt k item ++ t)) :
    cur.skipSpaces.rest = prettyAt k item ++ t ∧
      ∃ c more, prettyAt k item ++ t = c :: more ∧ c ≠ ']' := by
  obtain ⟨c, more, hitem, hspace, hc⟩ := exists_cons_prettyAt k item
  rw [hitem] at hcur ⊢
  exact ⟨rest_skipSpaces_of_newline hcur hspace, c, more ++ t, rfl, hc⟩

theorem yields_nextItem_first {k : Nat} {item : Json}
    (hcur : cur.rest = newline k ++ (prettyAt k item ++ t)) :
    Yields (cur.nextItem true) true (prettyAt k item ++ t) := by
  obtain ⟨hrest, c, more, hcons, hc⟩ := rest_skipSpaces_of_item hcur
  refine ⟨cur.skipSpaces, ?_, hrest⟩
  rw [nextItem, hrest, hcons]
  dsimp only
  rw [if_neg hc, if_pos rfl]

theorem yields_nextItem_comma {k : Nat} {item : Json}
    (hcur : cur.rest = ',' :: (newline k ++ (prettyAt k item ++ t))) :
    Yields (cur.nextItem false) true (prettyAt k item ++ t) := by
  have hbehind : (cur.ahead 1 (newline k ++ (prettyAt k item ++ t))).rest =
    newline k ++ (prettyAt k item ++ t) := rfl
  obtain ⟨hrest, c, more, hcons, hc⟩ := rest_skipSpaces_of_item hbehind
  refine ⟨_, ?_, hrest⟩
  rw [nextItem, skipSpaces_of_not_space hcur rfl, hcur]
  dsimp only
  rw [if_neg (by decide), if_neg (by decide), if_pos rfl, hrest, hcons]
  exact if_neg hc

/-- The pretty form of the value is read back, whatever follows. -/
def IsReadBack (depth k : Nat) (j : Json) : Prop :=
  ∀ {steps : Nat} {cur : Cursor} {more : Text}, EndsNumber more → (prettyAt k j).length < steps →
    cur.rest = prettyAt k j ++ more → Yields (value steps depth cur) j more

theorem yields_items {k : Nat} {read : List Json} {item j : Json} (hitem : IsReadBack depth k item)
    (ht : EndsNumber t) (hsteps : (prettyAt k item).length < steps)
    (hnext : Yields (cur.nextItem isFirst) true (prettyAt k item ++ t))
    (hlater : ∀ {next : Cursor}, next.rest = t →
      Yields (items steps depth false (item :: read) next) j more) :
    Yields (items (steps + 1) depth isFirst read cur) j more := by
  obtain ⟨next, hnext, hrest⟩ := hnext
  obtain ⟨after, hread, hafter⟩ := hitem ht hsteps hrest
  obtain ⟨last, hlater, hmore⟩ := hlater hafter
  refine ⟨last, ?_, hmore⟩
  simp only [items, hnext, hread, hlater]

theorem yields_noItems {read : List Json} (hcur : cur.skipSpaces.rest = ']' :: t) :
    Yields (items (steps + 1) depth isFirst read cur) (.array read.reverse) t := by
  have hnext : cur.nextItem isFirst = .ok (false, cur.skipSpaces) := by
    rw [nextItem, hcur]
    rfl
  refine ⟨cur.skipSpaces.skipOne, ?_, rest_skipOne hcur⟩
  rw [items, hnext]

theorem yields_laterItems {k outer : Nat} {its : List Json} :
    ∀ {steps : Nat} {read : List Json} {cur : Cursor}, (∀ item ∈ its, IsReadBack depth k item) →
    (laterItems k its).length < steps →
    cur.rest = laterItems k its ++ (newline outer ++ ']' :: more) →
    Yields (items steps depth false read cur) (.array (read.reverse ++ its)) more := by
  induction its with
  | nil =>
    intro steps read cur _ hsteps hcur
    obtain ⟨steps, rfl⟩ := Nat.exists_eq_add_of_lt hsteps
    rw [List.append_nil]
    exact yields_noItems (rest_skipSpaces_of_newline hcur rfl)
  | cons item its ih =>
    intro steps read cur hits hsteps hcur
    have hlater : laterItems k (item :: its) =
        ',' :: (newline k ++ (prettyAt k item ++ laterItems k its)) := by
      rw [laterItems, List.flatMap_cons, List.cons_append, List.append_assoc]
      rfl
    rw [hlater] at hsteps hcur
    simp only [List.cons_append, List.append_assoc, List.length_cons,
      List.length_append] at hsteps hcur
    obtain ⟨hitem, hits⟩ := List.forall_mem_cons.mp hits
    cases steps with
    | zero => exact absurd hsteps (Nat.not_lt_zero _)
    | succ steps =>
      refine yields_items hitem (endsNumber_laterItems k its outer _) (by omega)
        (yields_nextItem_comma hcur) fun {next} hrest => ?_
      have h : Yields (items steps depth false (item :: read) next)
          (.array ((item :: read).reverse ++ its)) more := ih hits (by omega) hrest
      rw [List.reverse_cons, List.append_assoc] at h
      exact h

/-- **The items of an array are read back.** -/
theorem yields_prettyItems {k outer : Nat} {its : List Json}
    (hits : ∀ item ∈ its, IsReadBack depth k item)
    (hne : its ≠ []) (hsteps : (prettyItems k its).length < steps)
    (hcur : cur.rest = prettyItems k its ++ (newline outer ++ ']' :: more)) :
    Yields (items steps depth true [] cur) (.array its) more := by
  cases its with
  | nil => exact absurd rfl hne
  | cons item its =>
    rw [prettyItems_cons] at hsteps hcur
    simp only [List.append_assoc, List.length_append, length_newline] at hsteps hcur
    obtain ⟨hitem, hits⟩ := List.forall_mem_cons.mp hits
    cases steps with
    | zero => exact absurd hsteps (Nat.not_lt_zero _)
    | succ steps =>
      refine yields_items hitem (endsNumber_laterItems k its outer _) (by omega)
        (yields_nextItem_first hcur) fun {next} hrest => ?_
      exact yields_laterItems hits (by omega) hrest

/-! ### Fields -/

/-- A field of an object, with a colon and a space behind its name. -/
def prettyField (k : Nat) (f : Field) : Text :=
  '"' :: (f.1.flatMap escapeChar ++ '"' :: ':' :: ' ' :: prettyAt k f.2)

theorem prettyField_eq (k : Nat) (f : Field) :
    quote f.1 ++ ": ".toList ++ prettyAt k f.2 = prettyField k f := by
  have hcolon : ": ".toList = [':', ' '] := rfl
  rw [hcolon, quote, prettyField]
  simp only [List.cons_append, List.append_assoc, List.nil_append]

/-- The fields of an object behind the first. -/
def laterFields (k : Nat) (fs : List Field) : Text :=
  fs.flatMap fun f => ',' :: (newline k ++ prettyField k f)

theorem prettyFields_cons (k : Nat) (f : Field) (fs : List Field) :
    prettyFields k (f :: fs) = newline k ++ prettyField k f ++ laterFields k fs := by
  induction fs generalizing f with
  | nil =>
    rw [prettyFields, laterFields, List.flatMap_nil, List.append_nil, ← prettyField_eq]
    simp only [List.append_assoc]
  | cons second fs ih =>
    rw [prettyFields, ih second, laterFields, laterFields, List.flatMap_cons, ← prettyField_eq k f]
    · simp only [List.append_assoc, List.cons_append]
    · exact List.cons_ne_nil second fs

theorem endsNumber_laterFields (k : Nat) (fs : List Field) (outer : Nat) (t : Text) :
    EndsNumber (laterFields k fs ++ (newline outer ++ t)) := by
  cases fs with
  | nil => exact endsNumber_newline outer t
  | cons f fs => exact endsNumber_comma _

theorem yields_nextName_first {k : Nat} (hcur : cur.rest = newline k ++ '"' :: t) :
    Yields (cur.nextName true) true ('"' :: t) := by
  have hrest : cur.skipSpaces.rest = '"' :: t := rest_skipSpaces_of_newline hcur rfl
  refine ⟨cur.skipSpaces, ?_, hrest⟩
  rw [nextName, hrest]
  rfl

theorem yields_nextName_comma {k : Nat} (hcur : cur.rest = ',' :: (newline k ++ '"' :: t)) :
    Yields (cur.nextName false) true ('"' :: t) := by
  have hbehind : (cur.ahead 1 (newline k ++ '"' :: t)).rest = newline k ++ '"' :: t := rfl
  have hrest := rest_skipSpaces_of_newline hbehind rfl
  refine ⟨_, ?_, hrest⟩
  rw [nextName, skipSpaces_of_not_space hcur rfl, hcur]
  dsimp only
  rw [if_neg (by decide), if_neg (by decide), if_pos rfl, hrest]
  rfl

/-- A value is read behind a space too. -/
theorem IsReadBack.of_space {k : Nat} {j : Json} (h : IsReadBack depth k j)
    (hmore : EndsNumber more)
    (hsteps : (prettyAt k j).length < steps) (hcur : cur.rest = ' ' :: (prettyAt k j ++ more)) :
    Yields (value steps depth cur) j more := by
  obtain ⟨c, t, hj, hspace, -⟩ := exists_cons_prettyAt k j
  have hrest : cur.skipSpaces.rest = prettyAt k j ++ more := by
    rw [rest_skipSpaces, hcur, hj, List.dropWhile_cons_of_pos rfl]
    exact List.dropWhile_cons_of_neg (Bool.not_eq_true _ ▸ hspace)
  cases steps with
  | zero => exact absurd hsteps (Nat.not_lt_zero _)
  | succ steps =>
    rw [← value_skipSpaces]
    exact h hmore hsteps hrest

theorem length_le_quote (t : Text) : t.length ≤ (t.flatMap escapeChar).length := by
  induction t with
  | nil => exact Nat.le_refl 0
  | cons c t ih =>
    have hc : 1 ≤ (escapeChar c).length := by
      unfold escapeChar
      split_ifs <;> simp only [List.length_cons, Nat.le_add_left]
    rw [List.flatMap_cons, List.length_append, List.length_cons]
    omega

theorem yields_fields {k : Nat} {read : List Field} {f : Field} {j : Json}
    (hf : IsReadBack depth k f.2) (ht : EndsNumber t) (hsteps : (prettyField k f).length < steps)
    (hnext : Yields (cur.nextName isFirst) true (prettyField k f ++ t))
    (hlater : ∀ {next : Cursor}, next.rest = t →
      Yields (fields steps depth false (Table.set f.1 f.2 read) next) j more) :
    Yields (fields (steps + 1) depth isFirst read cur) j more := by
  have hlength := length_le_quote f.1
  simp only [prettyField, List.length_cons, List.length_append] at hsteps
  obtain ⟨next, hnext, hrest⟩ := hnext
  have hname : next.skipOne.rest =
      f.1.flatMap escapeChar ++ '"' :: (':' :: ' ' :: (prettyAt k f.2 ++ t)) := by
    rw [prettyField, List.cons_append] at hrest
    rw [rest_skipOne hrest, List.append_assoc]
    rfl
  have hquoted : Yields (quoted steps [] next.skipOne) f.1 _ := yields_quoted f.1 (by omega) hname
  obtain ⟨behind, hquoted, hbehind⟩ := hquoted
  have hspace : (behind.ahead 1 (' ' :: (prettyAt k f.2 ++ t))).rest =
    ' ' :: (prettyAt k f.2 ++ t) := rfl
  have hvalue : (prettyAt k f.2).length < steps := by omega
  obtain ⟨after, hvalue, hafter⟩ := hf.of_space ht hvalue hspace
  obtain ⟨last, hlater, hmore⟩ := hlater hafter
  refine ⟨last, ?_, hmore⟩
  simp only [fields, hnext, hquoted, colon_of_cons hbehind, hvalue, bind, Except.bind, pure,
    Except.pure, hlater]

theorem yields_noFields {read : List Field} (hcur : cur.skipSpaces.rest = '\x7d' :: t) :
    Yields (fields (steps + 1) depth isFirst read cur) (.object read) t := by
  have hnext : cur.nextName isFirst = .ok (false, cur.skipSpaces) := by
    rw [nextName, hcur]
    rfl
  refine ⟨cur.skipSpaces.skipOne, ?_, rest_skipOne hcur⟩
  rw [fields, hnext]

theorem yields_laterFields {k outer : Nat} {fs : List Field} :
    ∀ {steps : Nat} {read : List Field} {cur : Cursor}, (∀ f ∈ fs, IsReadBack depth k f.2) →
    Table.IsAscending (read ++ fs) → (laterFields k fs).length < steps →
    cur.rest = laterFields k fs ++ (newline outer ++ '\x7d' :: more) →
    Yields (fields steps depth false read cur) (.object (read ++ fs)) more := by
  induction fs with
  | nil =>
    intro steps read cur _ _ hsteps hcur
    obtain ⟨steps, rfl⟩ := Nat.exists_eq_add_of_lt hsteps
    rw [List.append_nil]
    exact yields_noFields (rest_skipSpaces_of_newline hcur rfl)
  | cons f fs ih =>
    intro steps read cur hfs hnames hsteps hcur
    have hlater : laterFields k (f :: fs) =
        ',' :: (newline k ++ (prettyField k f ++ laterFields k fs)) := by
      rw [laterFields, List.flatMap_cons, List.cons_append, List.append_assoc]
      rfl
    rw [hlater] at hsteps hcur
    simp only [List.cons_append, List.append_assoc, List.length_cons,
      List.length_append] at hsteps hcur
    obtain ⟨hf, hfs⟩ := List.forall_mem_cons.mp hfs
    have hset : Table.set f.1 f.2 read = read ++ [f] :=
      Table.set_of_last
        (fun e he => (List.pairwise_append.mp hnames).2.2 e he f List.mem_cons_self) f.2
    cases steps with
    | zero => exact absurd hsteps (Nat.not_lt_zero _)
    | succ steps =>
      refine yields_fields hf (endsNumber_laterFields k fs outer _) (by omega)
        (yields_nextName_comma hcur) fun {next} hrest => ?_
      have hsplit : read ++ f :: fs = read ++ [f] ++ fs := by
        rw [List.append_assoc]
        rfl
      rw [hset, hsplit]
      exact ih hfs (hsplit ▸ hnames) (by omega) hrest

/-- **The fields of an object are read back.** -/
theorem yields_prettyFields {k outer : Nat} {fs : List Field}
    (hfs : ∀ f ∈ fs, IsReadBack depth k f.2)
    (hnames : Table.IsAscending fs) (hne : fs ≠ []) (hsteps : (prettyFields k fs).length < steps)
    (hcur : cur.rest = prettyFields k fs ++ (newline outer ++ '\x7d' :: more)) :
    Yields (fields steps depth true [] cur) (.object fs) more := by
  cases fs with
  | nil => exact absurd rfl hne
  | cons f fs =>
    rw [prettyFields_cons] at hsteps hcur
    simp only [List.append_assoc, List.length_append, length_newline] at hsteps hcur
    obtain ⟨hf, hfs⟩ := List.forall_mem_cons.mp hfs
    cases steps with
    | zero => exact absurd hsteps (Nat.not_lt_zero _)
    | succ steps =>
      refine yields_fields hf (endsNumber_laterFields k fs outer _) (by omega)
        (yields_nextName_first hcur) fun {next} hrest => ?_
      exact yields_laterFields hfs hnames (by omega) hrest

/-! ### Values -/

theorem value_of_open_bracket (hcur : cur.rest = '[' :: t) (hdepth : 0 < depth) :
    value (steps + 1) (depth + 1) cur = items steps depth true [] (cur.ahead 1 t) := by
  have hspaces := skipSpaces_of_not_space hcur rfl
  have hdeep : ¬ depth + 1 ≤ 1 := Nat.not_le_of_lt (Nat.succ_lt_succ hdepth)
  rw [value_of_bracket (hspaces.symm ▸ hcur), if_neg hdeep, hspaces]
  rfl

theorem value_of_open_brace (hcur : cur.rest = '\x7b' :: t) (hdepth : 0 < depth) :
    value (steps + 1) (depth + 1) cur = fields steps depth true [] (cur.ahead 1 t) := by
  have hspaces := skipSpaces_of_not_space hcur rfl
  have hdeep : ¬ depth + 1 ≤ 1 := Nat.not_le_of_lt (Nat.succ_lt_succ hdepth)
  rw [value_of_brace (hspaces.symm ▸ hcur), if_neg hdeep, hspaces]
  rfl

theorem isReadBack_array {k : Nat} {its : List Json} (hdepth : 0 < depth)
    (hits : ∀ item ∈ its, IsReadBack depth (k + 1) item) :
    IsReadBack (depth + 1) k (.array its) := by
  intro steps cur more _ hsteps hcur
  cases its with
  | nil =>
    rw [prettyAt] at hsteps hcur
    obtain ⟨steps, rfl⟩ := Nat.exists_eq_add_of_le' (Nat.le_of_lt hsteps)
    have hclose : (cur.ahead 1 (']' :: more)).skipSpaces.rest = ']' :: more := by
      rw [rest_skipSpaces]
      rfl
    exact (value_of_open_bracket hcur hdepth).symm ▸ yields_noItems hclose
  | cons item its =>
    have hne : item :: its ≠ [] := List.cons_ne_nil item its
    have hpretty : prettyAt k (.array (item :: its)) =
        '[' :: (prettyItems (k + 1) (item :: its) ++ (newline k ++ [']'])) := by
      rw [prettyAt, List.append_assoc, List.cons_append]
      exact hne
    rw [hpretty] at hsteps hcur
    simp only [List.cons_append, List.append_assoc] at hcur
    simp only [List.length_append, List.length_cons] at hsteps
    cases steps with
    | zero => exact absurd hsteps (Nat.not_lt_zero _)
    | succ steps =>
      rw [value_of_open_bracket hcur hdepth]
      exact yields_prettyItems hits hne (by omega) rfl

theorem isReadBack_object {k : Nat} {fs : List Field} (hdepth : 0 < depth)
    (hfs : ∀ f ∈ fs, IsReadBack depth (k + 1) f.2) (hnames : Table.IsAscending fs) :
    IsReadBack (depth + 1) k (.object fs) := by
  intro steps cur more _ hsteps hcur
  cases fs with
  | nil =>
    rw [prettyAt] at hsteps hcur
    obtain ⟨steps, rfl⟩ := Nat.exists_eq_add_of_le' (Nat.le_of_lt hsteps)
    have hclose : (cur.ahead 1 ('\x7d' :: more)).skipSpaces.rest = '\x7d' :: more := by
      rw [rest_skipSpaces]
      rfl
    exact (value_of_open_brace hcur hdepth).symm ▸ yields_noFields hclose
  | cons f fs =>
    have hne : f :: fs ≠ [] := List.cons_ne_nil f fs
    have hpretty : prettyAt k (.object (f :: fs)) =
        '\x7b' :: (prettyFields (k + 1) (f :: fs) ++ (newline k ++ ['\x7d'])) := by
      rw [prettyAt, List.append_assoc, List.cons_append]
      exact hne
    rw [hpretty] at hsteps hcur
    simp only [List.cons_append, List.append_assoc] at hcur
    simp only [List.length_append, List.length_cons] at hsteps
    cases steps with
    | zero => exact absurd hsteps (Nat.not_lt_zero _)
    | succ steps =>
      rw [value_of_open_brace hcur hdepth]
      exact yields_prettyFields hfs hnames hne (by omega) rfl

theorem isReadBack_number {k : Nat} {n : Numeral} (h : ∃ isNegative t,
    n.render = (if isNegative then ['-'] else []) ++ t ∧ Writes isNegative t n) :
    IsReadBack depth k (.number n) := by
  obtain ⟨isNegative, t, hrender, hwrites⟩ := h
  intro steps cur more hmore hsteps hcur
  rw [prettyAt, hrender] at hcur
  cases steps with
  | zero => exact absurd hsteps (Nat.not_lt_zero _)
  | succ steps => exact yields_number hwrites hmore hcur

/-- A value that ends with its text, as all but numbers do. -/
theorem isReadBack_of_yields {k : Nat} {j : Json} (h : ∀ {steps : Nat} {cur : Cursor} {more : Text},
    (prettyAt k j).length ≤ steps → cur.rest = prettyAt k j ++ more →
    Yields (value (steps + 1) depth cur) j more) : IsReadBack depth k j := by
  intro steps cur more _ hsteps hcur
  cases steps with
  | zero => exact absurd hsteps (Nat.not_lt_zero _)
  | succ steps => exact h (Nat.le_of_lt_succ hsteps) hcur

theorem isReadBack_text {k : Nat} (t : Text) : IsReadBack depth k (.text t) := by
  refine isReadBack_of_yields fun {steps cur more} hsteps hcur => ?_
  have hlength := length_le_quote t
  simp only [prettyAt, quote, List.length_append, List.length_cons] at hsteps
  simp only [prettyAt, quote, List.cons_append, List.append_assoc, List.nil_append] at hcur
  have hbehind : (cur.ahead 1 (t.flatMap escapeChar ++ '"' :: more)).rest =
    t.flatMap escapeChar ++ '"' :: more := rfl
  have hquoted :
      Yields (quoted steps [] (cur.ahead 1 (t.flatMap escapeChar ++ '"' :: more))) t more :=
    yields_quoted t (by omega) hbehind
  obtain ⟨next, hquoted, hrest⟩ := hquoted
  refine ⟨next, ?_, hrest⟩
  rw [value_of_quote hcur, hquoted]
  rfl

end Cursor

/-! ### Binary64 numbers -/

mutual

/-- The binary64 numbers that stand in a value. -/
def doubles : Json → List Double
  | .number (.double x) => [x]
  | .array its => doublesOfItems its
  | .object fs => doublesOfFields fs
  | _ => []

/-- The binary64 numbers that stand in the items of an array. -/
def doublesOfItems : List Json → List Double
  | [] => []
  | item :: its => doubles item ++ doublesOfItems its

/-- The binary64 numbers that stand in the fields of an object. -/
def doublesOfFields : List (Text × Json) → List Double
  | [] => []
  | (_, value) :: fs => doubles value ++ doublesOfFields fs

end

theorem mem_doubles_of_item {its : List Json} {item : Json} (hitem : item ∈ its) {x : Double}
    (hx : x ∈ doubles item) : x ∈ doubles (.array its) := by
  rw [doubles]
  induction its with
  | nil => cases hitem
  | cons first its ih =>
    rw [doublesOfItems, List.mem_append]
    rcases List.mem_cons.mp hitem with rfl | hitem
    · exact .inl hx
    · exact .inr (ih hitem)

theorem mem_doubles_of_field {fs : List Field} {f : Field} (hf : f ∈ fs) {x : Double}
    (hx : x ∈ doubles f.2) : x ∈ doubles (.object fs) := by
  rw [doubles]
  induction fs with
  | nil => cases hf
  | cons first fs ih =>
    rw [doublesOfFields, List.mem_append]
    rcases List.mem_cons.mp hf with rfl | hf
    · exact .inl hx
    · exact .inr (ih hf)

/-! ### Whole texts -/

open Cursor in
theorem isReadBack_of_isReadable {depth : Nat} {j : Json} (h : IsReadable depth j) :
    (∀ x ∈ doubles j, IsExact x) → ∀ k, IsReadBack depth k j := by
  induction h with
  | null =>
    exact fun _ k => isReadBack_of_yields fun _ hcur => yields_word (value_of_n hcur) rfl
  | bool _ b =>
    intro _ k
    cases b with
    | true => exact isReadBack_of_yields fun _ hcur => yields_word (value_of_t hcur) rfl
    | false => exact isReadBack_of_yields fun _ hcur => yields_word (value_of_f hcur) rfl
  | text _ t => exact fun _ k => isReadBack_text t
  | @number _ n hn =>
    intro hexact k
    apply isReadBack_number
    cases n with
    | natural n => exact ⟨false, _, rfl, writes_natural hn⟩
    | negative n => exact ⟨true, _, rfl, writes_negative hn.1 hn.2⟩
    | double x => exact exists_writes_double (hexact x (List.mem_singleton_self x))
  | array _ hdepth ih =>
    exact fun hexact k => isReadBack_array hdepth fun item hitem =>
      ih item hitem (fun x hx => hexact x (mem_doubles_of_item hitem hx)) (k + 1)
  | object _ hnames hdepth ih =>
    exact fun hexact k => isReadBack_object hdepth (fun f hf =>
      ih f hf (fun x hx => hexact x (mem_doubles_of_field hf hx)) (k + 1)) hnames

/-- **A value is read back from its pretty form.** -/
theorem parse_pretty {j : Json} (h : IsReadable maxDepth j) (hexact : ∀ x ∈ doubles j, IsExact x) :
    parse j.pretty = .ok j := by
  have hstart : (Cursor.start j.pretty).rest = j.prettyAt 0 ++ [] := (List.append_nil _).symm
  have hsteps : (j.prettyAt 0).length < Cursor.enoughSteps j.pretty := by
    rw [Cursor.enoughSteps, pretty]
    omega
  obtain ⟨next, hvalue, hrest⟩ := isReadBack_of_isReadable h hexact 0 endsNumber_nil hsteps hstart
  have hfinish : next.finish = .ok () := by
    have hspaces : next.skipSpaces.rest = [] := by
      rw [Cursor.rest_skipSpaces, hrest]
      rfl
    rw [Cursor.finish, hspaces]
  simp only [parse, bind_eq_ok, pure_eq_ok]
  exact ⟨⟨j, next⟩, hvalue, (), hfinish, rfl⟩

end MetricsBridge.Json
