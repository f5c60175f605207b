import MetricsBridge.Proofs.Json.Steps

/-!
# Passing over values

Reading follows the nesting of a text by calling itself; passing over keeps a list of the containers
that are open.  A value that is read is passed over inside the open containers exactly if what is
left of these is passed over behind it (`passes_of_reading`), and the same holds of a value that is
itself passed over (`passes_of_skipInside`).
-/
namespace MetricsBridge.Json.Cursor

variable {cur next stop : Cursor} {rest : Text} {c : Char} {steps : Nat}

/-! ### Quoted texts -/

/-- Passing over the rest of a quoted text ends at `stop`. -/
def PassesText (cur stop : Cursor) : Prop :=
  ∃ steps, skipQuoted steps cur = .ok stop

theorem passesText_of_quote (hcur : cur.rest = '"' :: rest) :
    PassesText cur stop ↔ stop = cur.ahead 1 rest := by
  have hcharacter : cur.skipCharacter = .ok (true, cur.ahead 1 rest) := by
    rw [skipCharacter, hcur]
    rfl
  constructor
  · rintro ⟨steps, h⟩
    cases steps with
    | zero => cases h
    | succ steps =>
      rw [skipQuoted_succ, hcharacter] at h
      exact (Except.ok.inj h).symm
  · rintro rfl
    refine ⟨1, ?_⟩
    rw [skipQuoted_succ, hcharacter]
    rfl

theorem passesText_of_skipCharacter (h : cur.skipCharacter = .ok (false, next)) :
    PassesText cur stop ↔ PassesText next stop := by
  constructor
  · rintro ⟨steps, hskip⟩
    cases steps with
    | zero => cases hskip
    | succ steps =>
      rw [skipQuoted_succ, h] at hskip
      exact ⟨steps, hskip⟩
  · rintro ⟨steps, hskip⟩
    refine ⟨steps + 1, ?_⟩
    rw [skipQuoted_succ, h]
    exact hskip

theorem pairMark_eq_ok {mark : Char} (h : cur.pairMark mark = .ok next) :
    ∃ rest, cur.rest = mark :: rest ∧ next = cur.ahead 1 rest := by
  unfold pairMark at h
  split at h
  · cases h
  · next c rest hcur =>
    split at h
    · next hc =>
      cases h
      exact ⟨rest, hc ▸ hcur, rfl⟩
    · cases h

/-- An escape by number is one code unit, or a pair of two. -/
theorem unicodeEscape_eq_ok {c : Char} (h : cur.unicodeEscape = .ok (c, next)) :
    (∃ code, cur.hexEscape = .ok (code, next)) ∨
      ∃ high low after rest, cur.hexEscape = .ok (high, after) ∧ after.rest = '\\' :: 'u' :: rest ∧
        ((after.ahead 1 ('u' :: rest)).ahead 1 rest).hexEscape = .ok (low, next) := by
  simp only [unicodeEscape, bind_eq_ok] at h
  obtain ⟨⟨high, after⟩, hhigh, h⟩ := h
  dsimp only at h
  split at h
  · cases h
  · split at h
    · simp only [bind_eq_ok] at h
      obtain ⟨mark, hmark, mark', hmark', ⟨low, last⟩, hlow, h⟩ := h
      obtain ⟨rest, hrest, rfl⟩ := pairMark_eq_ok hmark
      obtain ⟨rest', rfl, rfl⟩ := pairMark_eq_ok hmark'
      dsimp only at h
      split at h
      · rw [Except.ok.injEq, Prod.mk.injEq] at h
        exact .inr ⟨high, low, after, rest', hhigh, hrest, h.2 ▸ hlow⟩
      · cases h
    · cases h
      exact .inl ⟨high, hhigh⟩

theorem skipCharacter_of_hexEscape (hcur : cur.rest = '\\' :: 'u' :: rest) {code : Nat}
    (h : ((cur.ahead 1 ('u' :: rest)).ahead 1 rest).hexEscape = .ok (code, next)) :
    cur.skipCharacter = .ok (false, next) := by
  simp only [skipCharacter, hcur, Char.reduceEq, if_false, if_true, h]
  rfl

/-- An escape that is read is one that is passed over, or two if it is a pair. -/
theorem passesText_of_escape (hcur : cur.rest = '\\' :: rest)
    (hread : (cur.ahead 1 rest).escape = .ok (c, next)) :
    PassesText cur stop ↔ PassesText next stop := by
  rw [escape] at hread
  cases rest with
  | nil => cases hread
  | cons d more =>
    dsimp only [ahead] at hread
    split at hread
    · next hd =>
      subst hd
      rcases unicodeEscape_eq_ok hread with ⟨code, hcode⟩ | ⟨_, _, after, rest, hhigh, hrest, hlow⟩
      · exact passesText_of_skipCharacter (skipCharacter_of_hexEscape hcur hcode)
      · exact (passesText_of_skipCharacter (skipCharacter_of_hexEscape hcur hhigh)).trans
          (passesText_of_skipCharacter (skipCharacter_of_hexEscape hrest hlow))
    · next hd =>
      split at hread
      · next e he =>
        cases hread
        refine passesText_of_skipCharacter ?_
        simp only [skipCharacter, hcur, hd, he, Option.isSome_some, Char.reduceEq, if_false,
          if_true]
        rfl
      · cases hread

/-- **A text that is read is passed over** up to the same place. -/
theorem passesText_of_quoted {steps : Nat} : ∀ {read t : Text} {cur : Cursor},
    quoted steps read cur = .ok (t, next) → (PassesText cur stop ↔ stop = next) := by
  induction steps with
  | zero => intro read t cur h; cases h
  | succ steps ih =>
    intro read t cur h
    rw [quoted] at h
    split at h
    · cases h
    · next c rest hcur =>
      split_ifs at h with hquote hslash hcontrol
      · cases h
        exact passesText_of_quote (hquote ▸ hcur)
      · split at h
        · next e after hescape => exact (passesText_of_escape (hslash ▸ hcur) hescape).trans (ih h)
        · cases h
      · cases h
      · have hcharacter : cur.skipCharacter = .ok (false, cur.past c rest) := by
          simp only [skipCharacter, hcur, hquote, hslash, hcontrol, if_false]
        exact (passesText_of_skipCharacter hcharacter).trans (ih h)

theorem exists_skipQuoted {read t : Text} (h : quoted steps read cur = .ok (t, next)) :
    ∃ steps, skipQuoted steps cur = .ok next :=
  (passesText_of_quoted h).mpr rfl

/-! ### Values and containers -/

/-- Passing over a value inside the open containers, and over what is left of these, ends at
`stop`. -/
def Passes (outer : List Container) (cur stop : Cursor) : Prop :=
  ∃ steps, skipInside steps outer cur = .ok stop

/-- Passing over what is left of the open containers ends at `stop`, behind an item of the innermost
or at its start. -/
def Resumes (afterItem : Bool) (outer : List Container) (cur stop : Cursor) : Prop :=
  ∃ steps steps' opened next, skipCloses steps afterItem outer cur = .ok (opened, next) ∧
    skipNext steps' opened next = .ok stop

variable {afterItem isFirst : Bool} {outer opened : List Container} {top : Container}

/-- A value starts with a token, behind which passing over resumes. -/
theorem passes_iff : Passes outer cur stop ↔ ∃ steps opened next,
    skipToken steps cur = .ok (opened, next) ∧
      Resumes opened.isNone (opened.toList ++ outer) next stop := by
  constructor
  · rintro ⟨steps, h⟩
    cases steps with
    | zero => cases h
    | succ steps =>
      rw [skipInside_succ] at h
      simp only [except_bind_eq_ok] at h
      obtain ⟨⟨opened, next⟩, htoken, ⟨opened', next'⟩, hcloses, hnext⟩ := h
      exact ⟨steps, opened, next, htoken, steps, steps, opened', next', hcloses, hnext⟩
  · rintro ⟨_, opened, next, htoken, _, _, opened', next', hcloses, hnext⟩
    have hlength := length_skipToken_lt htoken
    have hlength' := Nat.lt_of_le_of_lt (length_skipCloses_le hcloses) hlength
    refine ⟨cur.rest.length + 1, ?_⟩
    rw [skipInside_succ]
    simp only [except_bind_eq_ok]
    exact ⟨(opened, next), skipToken_settles cur htoken (Nat.le_refl _), (opened', next'),
      skipCloses_settles _ _ _ hcloses hlength, skipNext_settles _ _ hnext hlength'⟩

theorem passes_of_skipToken {token : Option Container}
    (h : skipToken steps cur = .ok (token, next)) :
    Passes outer cur stop ↔ Resumes token.isNone (token.toList ++ outer) next stop := by
  rw [passes_iff]
  constructor
  · rintro ⟨_, token', next', htoken, hresumes⟩
    cases (skipToken_settles cur).unique h htoken
    exact hresumes
  · exact fun hresumes => ⟨steps, token, next, h, hresumes⟩

/-- The brackets that close are known. -/
theorem resumes_of_skipCloses_eq
    (h : ∀ steps, skipCloses (steps + 1) afterItem outer cur = .ok (opened, next)) :
    Resumes afterItem outer cur stop ↔ ∃ steps, skipNext steps opened next = .ok stop := by
  constructor
  · rintro ⟨steps, steps', _, _, hcloses, hnext⟩
    cases steps with
    | zero => cases hcloses
    | succ steps =>
      cases (h steps).symm.trans hcloses
      exact ⟨steps', hnext⟩
  · rintro ⟨steps, hnext⟩
    exact ⟨1, steps, opened, next, h 0, hnext⟩

/-- Where nothing is open, there is nothing to resume. -/
theorem resumes_nil : Resumes true [] cur stop ↔ stop = cur := by
  rw [resumes_of_skipCloses_eq fun steps => rfl]
  constructor
  · rintro ⟨_, hnext⟩
    exact (Except.ok.inj hnext).symm
  · rintro rfl
    exact ⟨0, rfl⟩

/-! ### Spaces -/

theorem afterSpaces_afterSpaces (line column : Nat) (t : Text) :
    (afterSpaces line column t).skipSpaces = afterSpaces line column t := by
  induction t generalizing line column with
  | nil => rfl
  | cons c t ih =>
    rw [afterSpaces]
    split_ifs with hline hspace
    · exact ih _ _
    · exact ih _ _
    · simp [skipSpaces, afterSpaces, hline, hspace]

@[simp] theorem skipSpaces_skipSpaces (cur : Cursor) : cur.skipSpaces.skipSpaces = cur.skipSpaces :=
  afterSpaces_afterSpaces cur.line cur.column cur.rest

theorem skipToken_skipSpaces (steps : Nat) (cur : Cursor) :
    skipToken steps cur.skipSpaces = skipToken steps cur := by
  rw [skipToken, skipToken, skipSpaces_skipSpaces]

theorem passes_skipSpaces : Passes outer cur.skipSpaces stop ↔ Passes outer cur stop := by
  simp only [passes_iff, skipToken_skipSpaces]

theorem skipName_skipSpaces (steps : Nat) (cur : Cursor) :
    skipName steps cur.skipSpaces = skipName steps cur := by
  rw [skipName, skipName, skipSpaces_skipSpaces]

theorem skipNext_skipSpaces :
    (∃ steps, skipNext steps (top :: outer) cur.skipSpaces = .ok stop) ↔
      ∃ steps, skipNext steps (top :: outer) cur = .ok stop := by
  cases top with
  | array => exact passes_skipSpaces
  | object => simp only [skipNext, skipName_skipSpaces]

/-! ### Items and names -/

/-- The bracket that closes a container. -/
def Container.close : Container → Char
  | .array => ']'
  | .object => '\x7d'

/-- A comma parts two items. -/
theorem resumes_of_comma (hcur : cur.skipSpaces.rest = ',' :: rest) :
    Resumes true (top :: outer) cur stop ↔
      ∃ steps, skipNext steps (top :: outer) (cur.skipSpaces.ahead 1 rest) = .ok stop := by
  refine resumes_of_skipCloses_eq fun steps => ?_
  simp only [skipCloses, hcur, and_self, if_true]

/-- A bracket closes the container. -/
theorem resumes_of_close (hcur : cur.skipSpaces.rest = top.close :: rest) :
    Resumes afterItem (top :: outer) cur stop ↔
      Resumes true outer (cur.skipSpaces.ahead 1 rest) stop := by
  have hcloses : ∀ steps, skipCloses (steps + 1) afterItem (top :: outer) cur =
      skipCloses steps true outer (cur.skipSpaces.ahead 1 rest) := by
    intro steps
    cases top with
    | array => simp [skipCloses, hcur, Container.close]
    | object => simp [skipCloses, hcur, Container.close]
  constructor
  · rintro ⟨steps, steps', opened, next, hskip, hnext⟩
    cases steps with
    | zero => cases hskip
    | succ steps => exact ⟨steps, steps', opened, next, hcloses steps ▸ hskip, hnext⟩
  · rintro ⟨steps, steps', opened, next, hskip, hnext⟩
    exact ⟨steps + 1, steps', opened, next, (hcloses steps).trans hskip, hnext⟩

/-- The first item is due, if the container is not closed at once. -/
theorem resumes_of_first (hcur : cur.skipSpaces.rest = c :: rest) (hc : c ≠ top.close) :
    Resumes false (top :: outer) cur stop ↔
      ∃ steps, skipNext steps (top :: outer) cur = .ok stop := by
  rw [← skipNext_skipSpaces]
  refine resumes_of_skipCloses_eq fun steps => ?_
  cases top with
  | array =>
    have hc' : c ≠ ']' := hc
    simp [skipCloses, hcur, hc']
  | object =>
    have hc' : c ≠ '\x7d' := hc
    simp [skipCloses, hcur, hc']

theorem nextItem_eq_false (h : cur.nextItem isFirst = .ok (false, next)) :
    ∃ rest, cur.skipSpaces.rest = ']' :: rest ∧ next = cur.skipSpaces := by
  unfold nextItem at h
  dsimp only at h
  split at h
  · cases h
  · next c rest hcur =>
    split at h
    · next hc =>
      cases h
      exact ⟨rest, hc ▸ hcur, rfl⟩
    · split at h
      · cases h
      · split at h
        · split at h
          · cases h
          · split at h <;> cases h
        · cases h

theorem nextItem_eq_true (h : cur.nextItem isFirst = .ok (true, next)) :
    (isFirst = true ∧ next = cur.skipSpaces ∧ ∃ c rest, cur.skipSpaces.rest = c :: rest ∧ c ≠ ']') ∨
      (isFirst = false ∧ ∃ rest, cur.skipSpaces.rest = ',' :: rest ∧
        next = (cur.skipSpaces.ahead 1 rest).skipSpaces) := by
  unfold nextItem at h
  dsimp only at h
  split at h
  · cases h
  · next c rest hcur =>
    split at h
    · cases h
    · next hc =>
      split at h
      · next hfirst =>
        cases h
        exact .inl ⟨hfirst, rfl, c, rest, hcur, hc⟩
      · next hfirst =>
        split at h
        · next hcomma =>
          split at h
          · cases h
          · split at h
            · cases h
            · cases h
              exact .inr ⟨Bool.not_eq_true _ ▸ hfirst, rest, hcomma ▸ hcur, rfl⟩
        · cases h

theorem skipOne_of_skipSpaces (top : Container) (hcur : cur.skipSpaces.rest = top.close :: rest) :
    cur.skipSpaces.skipOne = cur.skipSpaces.ahead 1 rest := by
  rw [skipOne, hcur]
  cases top <;> rfl

/-- The closing bracket that is read closes the array that is passed over. -/
theorem resumes_of_noItem (h : cur.nextItem isFirst = .ok (false, next)) :
    Resumes afterItem (.array :: outer) cur stop ↔ Resumes true outer next.skipOne stop := by
  obtain ⟨rest, hcur, rfl⟩ := nextItem_eq_false h
  rw [skipOne_of_skipSpaces .array hcur, resumes_of_close hcur]

/-- The item that comes next is passed over in its place. -/
theorem resumes_of_item (h : cur.nextItem isFirst = .ok (true, next)) :
    Resumes (!isFirst) (.array :: outer) cur stop ↔ Passes (.array :: outer) next stop := by
  rcases nextItem_eq_true h with ⟨rfl, rfl, c, rest, hcur, hc⟩ | ⟨rfl, rest, hcur, rfl⟩
  · rw [passes_skipSpaces]
    exact resumes_of_first hcur hc
  · rw [passes_skipSpaces]
    exact resumes_of_comma hcur

theorem nextName_eq_false (h : cur.nextName isFirst = .ok (false, next)) :
    ∃ rest, cur.skipSpaces.rest = '\x7d' :: rest ∧ next = cur.skipSpaces := by
  unfold nextName at h
  dsimp only at h
  split at h
  · cases h
  · next c rest hcur =>
    split at h
    · next hc =>
      cases h
      exact ⟨rest, hc ▸ hcur, rfl⟩
    · split at h
      · split at h <;> cases h
      · split at h
        · split at h
          · cases h
          · split at h
            · cases h
            · split at h <;> cases h
        · cases h

theorem nextName_eq_true (h : cur.nextName isFirst = .ok (true, next)) :
    (∃ rest, next.rest = '"' :: rest) ∧ next.skipSpaces = next ∧
    ((isFirst = true ∧ next = cur.skipSpaces) ∨
      (isFirst = false ∧ ∃ rest, cur.skipSpaces.rest = ',' :: rest ∧
        next = (cur.skipSpaces.ahead 1 rest).skipSpaces)) := by
  unfold nextName at h
  dsimp only at h
  split at h
  · cases h
  · next c rest hcur =>
    split at h
    · cases h
    · split at h
      · next hfirst =>
        split at h
        · next hc =>
          cases h
          exact ⟨⟨rest, hc ▸ hcur⟩, skipSpaces_skipSpaces _, .inl ⟨hfirst, rfl⟩⟩
        · cases h
      · next hfirst =>
        split at h
        · next hcomma =>
          split at h
          · cases h
          · next d more hnext =>
            split at h
            · next hd =>
              cases h
              refine ⟨⟨more, hd ▸ hnext⟩, skipSpaces_skipSpaces _, .inr ?_⟩
              exact ⟨Bool.not_eq_true _ ▸ hfirst, rest, hcomma ▸ hcur, rfl⟩
            · split at h <;> cases h
        · cases h

theorem length_nextName_le (h : cur.nextName isFirst = .ok (true, next)) :
    next.rest.length ≤ cur.rest.length := by
  obtain ⟨-, -, ⟨-, rfl⟩ | ⟨-, rest, hcur, rfl⟩⟩ := nextName_eq_true h
  · exact length_skipSpaces_le cur
  · exact Nat.le_trans (length_skipSpaces_le _) (Nat.le_of_lt (length_of_skipSpaces hcur))

/-- The closing brace that is read closes the object that is passed over. -/
theorem resumes_of_noName (h : cur.nextName isFirst = .ok (false, next)) :
    Resumes afterItem (.object :: outer) cur stop ↔ Resumes true outer next.skipOne stop := by
  obtain ⟨rest, hcur, rfl⟩ := nextName_eq_false h
  rw [skipOne_of_skipSpaces .object hcur, resumes_of_close hcur]

/-- The name that is read is passed over. -/
theorem exists_skipName (hrest : next.rest = '"' :: rest) (hspaces : next.skipSpaces = next)
    {name : Text} {behind value : Cursor}
    (hname : quoted steps [] next.skipOne = .ok (name, behind))
    (hcolon : behind.colon = .ok value) :
    ∃ steps, skipName steps next = .ok value := by
  have hone : next.skipOne = next.ahead 1 rest := by
    rw [skipOne, hrest]
    rfl
  obtain ⟨steps', hquoted⟩ := exists_skipQuoted (hone ▸ hname)
  refine ⟨steps', ?_⟩
  rw [skipName, hspaces]
  simp only [hrest, if_true, hquoted]
  exact hcolon

theorem skipNext_of_skipName {value : Cursor} (h : skipName steps cur = .ok value) :
    (∃ steps, skipNext steps (.object :: outer) cur = .ok stop) ↔
      Passes (.object :: outer) value stop := by
  constructor
  · rintro ⟨steps', hnext⟩
    rw [skipNext, except_bind_eq_ok] at hnext
    obtain ⟨value', hname, hvalue⟩ := hnext
    cases (skipName_settles cur).unique h hname
    exact ⟨steps', hvalue⟩
  · rintro ⟨steps', hvalue⟩
    have hlength := length_skipName_lt h
    refine ⟨cur.rest.length, ?_⟩
    rw [skipNext, except_bind_eq_ok]
    exact ⟨value, skipName_settles cur h (Nat.le_refl _), skipInside_settles value _ hvalue hlength⟩

/-- The name that is read is passed over, and the value behind it in its place. -/
theorem resumes_of_name (h : cur.nextName isFirst = .ok (true, next)) {name : Text}
    {behind value : Cursor} (hname : quoted steps [] next.skipOne = .ok (name, behind))
    (hcolon : behind.colon = .ok value) :
    Resumes (!isFirst) (.object :: outer) cur stop ↔ Passes (.object :: outer) value stop := by
  obtain ⟨⟨rest, hrest⟩, hspaces, hcur⟩ := nextName_eq_true h
  obtain ⟨steps', hskip⟩ := exists_skipName hrest hspaces hname hcolon
  rcases hcur with ⟨rfl, rfl⟩ | ⟨rfl, rest', hcomma, rfl⟩
  · rw [← skipNext_of_skipName hskip, skipNext_skipSpaces]
    exact resumes_of_first hrest (by decide)
  · rw [← skipNext_of_skipName hskip, skipNext_skipSpaces]
    exact resumes_of_comma hcomma

/-! ### Tokens -/

theorem passes_of_text (hcur : cur.skipSpaces.rest = '"' :: rest) {read t : Text}
    (hread : quoted steps read (cur.skipSpaces.ahead 1 rest) = .ok (t, next)) :
    Passes outer cur stop ↔ Resumes true outer next stop := by
  obtain ⟨steps', hquoted⟩ := exists_skipQuoted hread
  have htoken : skipToken steps' cur = .ok (none, next) := by
    have hdigit : isDigit '"' = false := rfl
    simp only [skipToken, hcur, hdigit, Char.reduceEq, Bool.false_eq_true, if_false, if_true,
      hquoted]
    rfl
  exact passes_of_skipToken htoken

theorem passes_of_null (hcur : cur.skipSpaces.rest = 'n' :: rest)
    (hread : (cur.skipSpaces.ahead 1 rest).word "ull".toList = .ok next) :
    Passes outer cur stop ↔ Resumes true outer next stop := by
  have htoken : skipToken 0 cur = .ok (none, next) := by
    simp only [skipToken, hcur, if_true, hread]
    rfl
  exact passes_of_skipToken htoken

theorem passes_of_bracket (hcur : cur.skipSpaces.rest = '[' :: rest) : Passes outer cur stop ↔
    Resumes false (.array :: outer) (cur.skipSpaces.ahead 1 rest) stop := by
  have htoken : skipToken 0 cur = .ok (some .array, cur.skipSpaces.ahead 1 rest) := by
    have hdigit : isDigit '[' = false := rfl
    simp only [skipToken, hcur, hdigit, Char.reduceEq, Bool.false_eq_true, if_false, if_true]
    rfl
  exact passes_of_skipToken htoken

theorem passes_of_brace (hcur : cur.skipSpaces.rest = '\x7b' :: rest) : Passes outer cur stop ↔
    Resumes false (.object :: outer) (cur.skipSpaces.ahead 1 rest) stop := by
  have htoken : skipToken 0 cur = .ok (some .object, cur.skipSpaces.ahead 1 rest) := by
    have hdigit : isDigit '\x7b' = false := rfl
    simp only [skipToken, hcur, hdigit, Char.reduceEq, Bool.false_eq_true, if_false, if_true]
    rfl
  exact passes_of_skipToken htoken

/-! ### Values -/

theorem value_skipSpaces (steps depth : Nat) (cur : Cursor) :
    value (steps + 1) depth cur.skipSpaces = value (steps + 1) depth cur := by
  rw [value, value, skipSpaces_skipSpaces]

theorem value_of_bracket (hcur : cur.skipSpaces.rest = '[' :: rest) (depth : Nat) :
    value (steps + 1) depth cur = if depth ≤ 1 then cur.skipSpaces.failNext .tooDeep
      else items steps (depth - 1) true [] (cur.skipSpaces.ahead 1 rest) := by
  rw [value, hcur]
  rfl

theorem value_of_brace (hcur : cur.skipSpaces.rest = '\x7b' :: rest) (depth : Nat) :
    value (steps + 1) depth cur = if depth ≤ 1 then cur.skipSpaces.failNext .tooDeep
      else fields steps (depth - 1) true [] (cur.skipSpaces.ahead 1 rest) := by
  rw [value, hcur]
  rfl

/-- A value that is read is a token, or what a bracket or a brace opens. -/
theorem ways_of_value {depth : Nat} {j : Json} (h : value (steps + 1) depth cur = .ok (j, next)) :
    (∃ steps, skipToken steps cur = .ok (none, next)) ∨
      (∃ rest, cur.skipSpaces.rest = '[' :: rest ∧
        items steps (depth - 1) true [] (cur.skipSpaces.ahead 1 rest) = .ok (j, next)) ∨
      ∃ rest, cur.skipSpaces.rest = '\x7b' :: rest ∧
        fields steps (depth - 1) true [] (cur.skipSpaces.ahead 1 rest) = .ok (j, next) := by
  rw [value] at h
  split at h
  · cases h
  · next c rest hcur =>
    by_cases hword : c = 'n' ∨ c = 't' ∨ c = 'f'
    · left
      refine ⟨0, ?_⟩
      rcases hword with rfl | rfl | rfl
      all_goals
        simp only [Char.reduceEq, if_true, if_false, bind_eq_ok, pure_eq_ok, Prod.mk.injEq] at h
        obtain ⟨after, hword, -, rfl⟩ := h
        simp only [skipToken, hcur, Char.reduceEq, if_true, if_false, hword]
        rfl
    simp only [not_or] at hword
    rw [if_neg hword.1, if_neg hword.2.1, if_neg hword.2.2] at h
    split_ifs at h with hminus hdigit hquote hbracket hdepth hbrace hdepth
    · simp only [bind_eq_ok, pure_eq_ok, Prod.mk.injEq] at h
      obtain ⟨⟨n, after⟩, hread, -, rfl⟩ := h
      refine .inl ⟨0, ?_⟩
      simp only [skipToken, hcur, hminus, if_true, skipNumeral_of_numeral hread]
      rfl
    · simp only [bind_eq_ok, pure_eq_ok, Prod.mk.injEq] at h
      obtain ⟨⟨n, after⟩, hread, -, rfl⟩ := h
      refine .inl ⟨0, ?_⟩
      simp only [skipToken, hcur, hword, hminus, hdigit, if_true, if_false,
        skipNumeral_of_numeral hread]
      rfl
    · simp only [bind_eq_ok, pure_eq_ok, Prod.mk.injEq] at h
      obtain ⟨⟨t, after⟩, hread, -, rfl⟩ := h
      obtain ⟨steps', hskip⟩ := exists_skipQuoted hread
      refine .inl ⟨steps', ?_⟩
      simp only [skipToken, hcur, hquote, if_true, hskip]
      rfl
    · cases h
    · exact .inr (.inl ⟨rest, hbracket ▸ hcur, h⟩)
    · cases h
    · exact .inr (.inr ⟨rest, hbrace ▸ hcur, h⟩)
    · cases h

/-- The three readings that call each other, with so many steps. -/
theorem passes_of_reading (steps : Nat) :
    (∀ depth cur j next, value steps depth cur = .ok (j, next) →
      ∀ outer stop, Passes outer cur stop ↔ Resumes true outer next stop) ∧
    (∀ depth isFirst read cur j next, items steps depth isFirst read cur = .ok (j, next) →
      ∀ outer stop, Resumes (!isFirst) (.array :: outer) cur stop ↔ Resumes true outer next stop) ∧
    ∀ depth isFirst read cur j next, fields steps depth isFirst read cur = .ok (j, next) →
      ∀ outer stop, Resumes (!isFirst) (.object :: outer) cur stop ↔
        Resumes true outer next stop := by
  induction steps with
  | zero =>
    refine ⟨?_, ?_, ?_⟩
    · intro depth cur j next h
      cases h
    · intro depth isFirst read cur j next h
      cases h
    · intro depth isFirst read cur j next h
      cases h
  | succ steps ih =>
    obtain ⟨ihvalue, ihitems, ihfields⟩ := ih
    refine ⟨?_, ?_, ?_⟩
    · intro depth cur j next h outer stop
      rcases ways_of_value h with ⟨_, htoken⟩ | ⟨rest, hcur, hitems⟩ | ⟨rest, hcur, hfields⟩
      · exact passes_of_skipToken htoken
      · exact (passes_of_bracket hcur).trans (ihitems _ _ _ _ _ _ hitems outer stop)
      · exact (passes_of_brace hcur).trans (ihfields _ _ _ _ _ _ hfields outer stop)
    · intro depth isFirst read cur j next h outer stop
      rw [items] at h
      split at h
      · cases h
      · next after hnext =>
        cases h
        exact resumes_of_noItem hnext
      · next after hnext =>
        split at h
        · cases h
        · next item behind hvalue =>
          rw [resumes_of_item hnext, ihvalue _ _ _ _ hvalue]
          exact ihitems _ _ _ _ _ _ h outer stop
    · intro depth isFirst read cur j next h outer stop
      rw [fields] at h
      split at h
      · cases h
      · next after hnext =>
        cases h
        exact resumes_of_noName hnext
      · next after hnext =>
        split at h
        · cases h
        · next read' behind hfield =>
          simp only [bind_eq_ok, pure_eq_ok] at hfield
          obtain ⟨⟨name, _⟩, hname, _, hcolon, ⟨v, _⟩, hvalue, heq⟩ := hfield
          cases heq
          rw [resumes_of_name hnext hname hcolon, ihvalue _ _ _ _ hvalue]
          exact ihfields _ _ _ _ _ _ h outer stop

/-! ### Values that are passed over -/

/-- Brackets that close containers close them inside others. -/
theorem resumes_of_skipCloses (outer : List Container) (stop : Cursor) {inner : List Container} :
    ∀ {steps : Nat} {afterItem : Bool} {opened : List Container} {cur next : Cursor},
    skipCloses steps afterItem inner cur = .ok (opened, next) → (inner = [] → afterItem = true) →
    (opened = [] ∧ (Resumes afterItem (inner ++ outer) cur stop ↔ Resumes true outer next stop)) ∨
      (opened ≠ [] ∧ (Resumes afterItem (inner ++ outer) cur stop ↔
        ∃ steps, skipNext steps (opened ++ outer) next = .ok stop)) := by
  induction inner with
  | nil =>
    intro steps afterItem opened cur next h hempty
    obtain rfl := hempty rfl
    cases steps with
    | zero => cases h
    | succ steps =>
      cases h
      exact .inl ⟨rfl, .rfl⟩
  | cons top inner ih =>
    intro steps afterItem opened cur next h _
    cases steps with
    | zero => cases h
    | succ steps =>
      rw [skipCloses] at h
      split at h
      · cases h
      · next c rest hcur =>
        by_cases hclose : c = top.close
        · rw [hclose] at hcur h
          have hcloses : skipCloses steps true inner (cur.skipSpaces.ahead 1 rest) =
              .ok (opened, next) := by
            cases top with
            | array => simpa [Container.close] using h
            | object => simpa [Container.close] using h
          rw [List.cons_append, resumes_of_close hcur]
          exact ih hcloses fun _ => rfl
        · have hclose' : ¬(c = ']' ∧ top = .array) ∧ ¬(c = '\x7d' ∧ top = .object) := by
            constructor
            · rintro ⟨rfl, rfl⟩
              exact hclose rfl
            · rintro ⟨rfl, rfl⟩
              exact hclose rfl
          rw [if_neg hclose'.1, if_neg hclose'.2] at h
          split at h
          · next hcomma =>
            obtain ⟨rfl, rfl⟩ := hcomma
            cases h
            exact .inr ⟨List.cons_ne_nil _ _, resumes_of_comma hcur⟩
          · split at h
            · cases h
            · next hfirst =>
              obtain rfl := Bool.not_eq_true _ ▸ hfirst
              cases h
              refine .inr ⟨List.cons_ne_nil _ _, ?_⟩
              rw [List.cons_append, skipNext_skipSpaces]
              exact resumes_of_first hcur hclose

/-- **A value that is passed over is passed over inside other containers** up to the same place. -/
theorem passes_of_skipInside {steps : Nat} : ∀ {inner : List Container} {cur : Cursor},
    skipInside steps inner cur = .ok next →
    (Passes (inner ++ outer) cur stop ↔ Resumes true outer next stop) := by
  induction steps with
  | zero => intro inner cur h; cases h
  | succ steps ih =>
    intro inner cur h
    rw [skipInside_succ] at h
    simp only [except_bind_eq_ok] at h
    obtain ⟨⟨container, behind⟩, htoken, ⟨opened, after⟩, hcloses, hnext⟩ := h
    have hempty : container.toList ++ inner = [] → container.isNone = true := by
      cases container <;> simp
    rw [passes_of_skipToken htoken, ← List.append_assoc]
    rcases resumes_of_skipCloses outer stop hcloses hempty with
      ⟨rfl, hresumes⟩ | ⟨hne, hresumes⟩
    · cases hnext
      exact hresumes
    · rw [hresumes]
      cases opened with
      | nil => exact absurd rfl hne
      | cons top opened =>
        cases top with
        | array => exact ih hnext
        | object =>
          simp only [skipNext, except_bind_eq_ok] at hnext
          obtain ⟨value, hname, hvalue⟩ := hnext
          rw [List.cons_append, skipNext_of_skipName hname]
          exact ih hvalue

end MetricsBridge.Json.Cursor
