import Mathlib.Tactic.SplitIfs
import MetricsBridge.Proofs.Json.Numeral
import MetricsBridge.Proofs.Success

/-!
# Steps of passing over

Passing over takes a step for a character at most.  So a bound that exceeds what is left of the text
brings what any bound brings (`skipInside_settles`), and the bounds of the parts of a value need not
be told apart.
-/
namespace MetricsBridge.Json.Cursor

/-- With `enough` steps or more a computation brings what it brings with any number of steps. -/
def Settles {α : Type} (enough : Nat) (f : Nat → Reading α) : Prop :=
  ∀ ⦃steps : Nat⦄ ⦃a : α⦄, f steps = .ok a → ∀ ⦃steps' : Nat⦄, enough ≤ steps' → f steps' = .ok a

section Settles

variable {α β : Type} {enough : Nat} {f : Nat → Reading α}

theorem Settles.mono (h : Settles enough f) {more : Nat} (hle : enough ≤ more) : Settles more f :=
  fun _ _ ha _ hsteps => h ha (Nat.le_trans hle hsteps)

theorem Settles.const (x : Reading α) : Settles enough fun _ => x :=
  fun _ _ ha _ _ => ha

/-- What follows has to settle only at what has been brought. -/
theorem Settles.bind {g : Nat → α → Reading β} (hf : Settles enough f)
    (hg : ∀ steps a, f steps = .ok a → Settles enough fun steps => g steps a) :
    Settles enough fun steps => (f steps).bind (g steps) := by
  intro steps b h steps' hsteps
  simp only [except_bind_eq_ok] at h ⊢
  obtain ⟨a, ha, hb⟩ := h
  exact ⟨a, hf ha hsteps, hg steps a ha hb hsteps⟩

/-- Two numbers of steps bring the same. -/
theorem Settles.unique (hf : Settles enough f) {steps steps' : Nat} {a b : α} (ha : f steps = .ok a)
    (hb : f steps' = .ok b) : b = a := by
  have ha' := hf ha (Nat.le_refl enough)
  rw [hf hb (Nat.le_refl enough)] at ha'
  exact Except.ok.inj ha'

/-- One step more is counted for each call. -/
theorem Settles.succ (hzero : ∀ a, f 0 ≠ .ok a) (h : Settles enough fun steps => f (steps + 1)) :
    Settles (enough + 1) f := by
  intro steps a ha steps' hsteps
  cases steps with
  | zero => exact absurd ha (hzero a)
  | succ steps =>
    cases steps' with
    | zero => exact absurd hsteps (Nat.not_succ_le_zero _)
    | succ steps' => exact h ha (Nat.le_of_succ_le_succ hsteps)

end Settles

variable {cur next : Cursor} {steps : Nat}

/-! ### Lengths -/

theorem rest_afterSpaces (line column : Nat) (t : Text) :
    (afterSpaces line column t).rest = t.dropWhile isSpace := by
  induction t generalizing line column with
  | nil => rfl
  | cons c t ih =>
    rw [afterSpaces, List.dropWhile_cons]
    split_ifs with hline hspace hspace
    · exact ih (line + 1) 0
    · exact absurd (hline ▸ rfl) hspace
    · exact ih line (column + 1)
    · rfl

theorem rest_skipSpaces (cur : Cursor) : cur.skipSpaces.rest = cur.rest.dropWhile isSpace :=
  rest_afterSpaces cur.line cur.column cur.rest

theorem length_skipSpaces_le (cur : Cursor) : cur.skipSpaces.rest.length ≤ cur.rest.length := by
  rw [rest_skipSpaces]
  exact (List.dropWhile_suffix isSpace).length_le

theorem length_of_skipSpaces {c : Char} {rest : Text} (hcur : cur.skipSpaces.rest = c :: rest) :
    rest.length < cur.rest.length := by
  have hle := length_skipSpaces_le cur
  rw [hcur] at hle
  exact hle

theorem rest_past (cur : Cursor) (c : Char) (t : Text) : (cur.past c t).rest = t := by
  unfold past
  split <;> rfl

theorem length_skipOne_le (cur : Cursor) : cur.skipOne.rest.length ≤ cur.rest.length := by
  rw [skipOne]
  cases hcur : cur.rest with
  | nil => exact Nat.le_of_eq (congrArg List.length hcur)
  | cons c rest =>
    dsimp only
    rw [rest_past]
    exact Nat.le_succ _

theorem length_word_le {w : Text} : ∀ {cur : Cursor}, cur.word w = .ok next →
    next.rest.length ≤ cur.rest.length := by
  induction w with
  | nil =>
    intro cur h
    cases h
    exact Nat.le_refl _
  | cons letter w ih =>
    intro cur h
    rw [word] at h
    split at h
    · cases h
    · next c rest hcur =>
      split at h
      · rw [hcur]
        exact Nat.le_succ_of_le (ih h)
      · cases h

theorem length_colon_lt (h : cur.colon = .ok next) : next.rest.length < cur.rest.length := by
  rw [colon] at h
  split at h
  · cases h
  · next c rest hcur =>
    split at h
    · cases h
      exact length_of_skipSpaces hcur
    · cases h

theorem length_hexEscape_lt {code : Nat} (h : cur.hexEscape = .ok (code, next)) :
    next.rest.length < cur.rest.length := by
  rw [hexEscape] at h
  split at h
  · next a b c d rest hcur =>
    split at h
    · cases h
      rw [hcur]
      simp only [ahead, List.length_cons]
      omega
    · cases h
  · split_ifs at h <;> cases h

theorem length_skipNumeral_lt (h : cur.skipNumeral = .ok next) :
    next.rest.length < cur.rest.length := by
  unfold skipNumeral at h
  split at h
  · next rest hcur =>
    dsimp only at h
    split at h
    · cases h
    · rw [hcur]
      exact Nat.lt_succ_of_le (rest_suffix_of_skipAfterInteger h).length_le
  · split at h
    · next hdigit =>
      refine Nat.lt_of_le_of_lt (rest_suffix_of_skipAfterInteger h).length_le ?_
      cases hcur : cur.rest with
      | nil =>
        rw [hcur] at hdigit
        cases hdigit
      | cons c rest =>
        have hc : isDigit c = true := by rwa [hcur] at hdigit
        rw [skipDigits, ahead, hcur, List.dropWhile_cons_of_pos hc]
        exact Nat.lt_succ_of_le (List.dropWhile_suffix isDigit).length_le
    · cases h

/-! ### Quoted texts -/

/-- Past a character of a quoted text, an escape, or the closing quote. -/
def skipCharacter (cur : Cursor) : Reading (Bool × Cursor) :=
  match cur.rest with
  | [] => cur.fail .unfinishedText
  | c :: rest =>
    if c = '"' then .ok (true, cur.ahead 1 rest)
    else if c = '\\' then
      match rest with
      | [] => (cur.ahead 1 rest).fail .unfinishedText
      | d :: more =>
        if d = 'u' then ((cur.ahead 1 rest).ahead 1 more).hexEscape.map fun x => (false, x.2)
        else if (escaped? d).isSome then .ok (false, (cur.ahead 1 rest).ahead 1 more)
        else (cur.ahead 1 rest).failNext .invalidEscape
    else if c.toNat < 0x20 then cur.fail .controlCharacter
    else .ok (false, cur.past c rest)

theorem skipQuoted_succ (steps : Nat) (cur : Cursor) : skipQuoted (steps + 1) cur =
    cur.skipCharacter.bind fun x => if x.1 then .ok x.2 else skipQuoted steps x.2 := by
  rw [skipQuoted, skipCharacter]
  cases cur.rest with
  | nil => rfl
  | cons c rest =>
    dsimp only
    split_ifs with hquote hslash hcontrol
    · rfl
    · cases rest with
      | nil => rfl
      | cons d more =>
        dsimp only [ahead]
        split_ifs
        · cases hexEscape _ <;> rfl
        · rfl
        · rfl
    · rfl
    · rfl

theorem length_skipCharacter_lt {ends : Bool} (h : cur.skipCharacter = .ok (ends, next)) :
    next.rest.length < cur.rest.length := by
  rw [skipCharacter] at h
  split at h
  · cases h
  · next c rest hcur =>
    rw [hcur]
    split_ifs at h
    · cases h
      exact Nat.lt_succ_self _
    · split at h
      · cases h
      · split_ifs at h
        · rw [except_map_eq_ok] at h
          obtain ⟨⟨code, after⟩, hhex, heq⟩ := h
          cases heq
          exact Nat.lt_trans (length_hexEscape_lt hhex) (Nat.lt_add_of_pos_right Nat.two_pos)
        · cases h
          exact Nat.lt_add_of_pos_right Nat.two_pos
        · cases h
    · cases h
    · cases h
      rw [rest_past]
      exact Nat.lt_succ_self _

theorem length_skipQuoted_lt {steps : Nat} : ∀ {cur : Cursor}, skipQuoted steps cur = .ok next →
    next.rest.length < cur.rest.length := by
  induction steps with
  | zero => intro cur h; cases h
  | succ steps ih =>
    intro cur h
    rw [skipQuoted_succ, except_bind_eq_ok] at h
    obtain ⟨⟨ends, after⟩, hcharacter, h⟩ := h
    have hlength := length_skipCharacter_lt hcharacter
    cases ends with
    | true =>
      cases h
      exact hlength
    | false => exact Nat.lt_trans (ih h) hlength

/-- The induction is on the length of what is left, which every step shortens. -/
theorem skipQuoted_settles (cur : Cursor) :
    Settles (cur.rest.length + 1) fun steps => skipQuoted steps cur := by
  induction hlength : cur.rest.length using Nat.strongRecOn generalizing cur with
  | _ length ih =>
    refine .succ nofun ?_
    simp only [skipQuoted_succ]
    refine .bind (.const _) fun _ x hcharacter => ?_
    obtain ⟨ends, after⟩ := x
    have hlt := length_skipCharacter_lt hcharacter
    cases ends with
    | true => exact .const _
    | false => exact (ih _ (hlength ▸ hlt) after rfl).mono (hlength ▸ hlt)

/-! ### Tokens and names -/

/-- A text needs steps to be passed over, and any other token does not. -/
theorem skipToken_settles (cur : Cursor) :
    Settles cur.rest.length fun steps => skipToken steps cur := by
  cases hcur : cur.skipSpaces.rest with
  | nil =>
    simp only [skipToken, hcur]
    exact .const _
  | cons c rest =>
    simp only [skipToken, hcur]
    by_cases hquote : c = '"'
    · subst hquote
      have hdigit : isDigit '"' = false := rfl
      simp only [hdigit, Char.reduceEq, Bool.false_eq_true, if_false, if_true]
      refine .bind ((skipQuoted_settles _).mono ?_) fun _ _ _ => .const _
      exact length_of_skipSpaces hcur
    · simp only [if_neg hquote]
      exact .const _

theorem length_skipToken_lt {x : Option Container × Cursor} (h : skipToken steps cur = .ok x) :
    x.2.rest.length < cur.rest.length := by
  rw [skipToken] at h
  split at h
  · cases h
  · next c rest hcur =>
    have hrest := length_of_skipSpaces hcur
    have hscalar : ∀ {y : Reading Cursor},
        (∀ after, y = .ok after → after.rest.length < cur.rest.length) →
        (do return (none, ← y) : Reading (Option Container × Cursor)) = .ok x →
        x.2.rest.length < cur.rest.length := by
      intro y hy hx
      simp only [bind_eq_ok, pure_eq_ok] at hx
      obtain ⟨after, hafter, rfl⟩ := hx
      exact hy after hafter
    dsimp only at h
    split_ifs at h
    · exact hscalar (fun _ hword => Nat.lt_of_le_of_lt (length_word_le hword) hrest) h
    · exact hscalar (fun _ hword => Nat.lt_of_le_of_lt (length_word_le hword) hrest) h
    · exact hscalar (fun _ hword => Nat.lt_of_le_of_lt (length_word_le hword) hrest) h
    · exact hscalar (fun _ hnumeral => Nat.lt_trans (length_skipNumeral_lt hnumeral) hrest) h
    · have hle := length_skipSpaces_le cur
      exact hscalar (fun _ hnumeral => Nat.lt_of_lt_of_le (length_skipNumeral_lt hnumeral) hle) h
    · exact hscalar (fun _ hquoted => Nat.lt_trans (length_skipQuoted_lt hquoted) hrest) h
    · cases h
      exact hrest
    · cases h
      exact hrest
    · cases h

theorem skipName_settles (cur : Cursor) :
    Settles cur.rest.length fun steps => skipName steps cur := by
  cases hcur : cur.skipSpaces.rest with
  | nil =>
    simp only [skipName, hcur]
    exact .const _
  | cons c rest =>
    simp only [skipName, hcur]
    split
    · refine .bind ((skipQuoted_settles _).mono ?_) fun _ _ _ => .const _
      exact length_of_skipSpaces hcur
    · exact .const _

theorem length_skipName_lt (h : skipName steps cur = .ok next) :
    next.rest.length < cur.rest.length := by
  rw [skipName] at h
  split at h
  · cases h
  · next c rest hcur =>
    split at h
    · simp only [bind_eq_ok] at h
      obtain ⟨after, hquoted, hcolon⟩ := h
      have hafter := Nat.lt_trans (length_skipQuoted_lt hquoted) (length_of_skipSpaces hcur)
      exact Nat.lt_trans (length_colon_lt hcolon) hafter
    · cases h

/-! ### Containers -/

theorem skipCloses_settles (outer : List Container) : ∀ (afterItem : Bool) (cur : Cursor),
    Settles (cur.rest.length + 1) fun steps => skipCloses steps afterItem outer cur := by
  induction outer with
  | nil =>
    intro afterItem cur
    refine .succ nofun ?_
    exact .const _
  | cons top outer ih =>
    intro afterItem cur
    refine .succ nofun ?_
    simp only [skipCloses]
    cases hcur : cur.skipSpaces.rest with
    | nil => exact .const _
    | cons c rest =>
      have hclosed := (ih true (cur.skipSpaces.ahead 1 rest)).mono (length_of_skipSpaces hcur)
      dsimp only
      split_ifs
      · exact .const _
      · exact hclosed
      · exact hclosed
      · exact .const _
      · exact .const _
      · exact .const _

theorem length_skipCloses_le {outer opened : List Container} : ∀ {steps : Nat} {afterItem : Bool}
    {cur : Cursor}, skipCloses steps afterItem outer cur = .ok (opened, next) →
    next.rest.length ≤ cur.rest.length := by
  induction outer with
  | nil =>
    intro steps afterItem cur h
    cases steps with
    | zero => cases h
    | succ steps =>
      cases h
      exact Nat.le_refl _
  | cons top outer ih =>
    intro steps afterItem cur h
    cases steps with
    | zero => cases h
    | succ steps =>
      rw [skipCloses] at h
      split at h
      · cases h
      · next c rest hcur =>
        have hrest := Nat.le_of_lt (length_of_skipSpaces hcur)
        split_ifs at h
        · cases h
          exact hrest
        · exact Nat.le_trans (ih h) hrest
        · exact Nat.le_trans (ih h) hrest
        · cases h
        · cases h
        · cases h
          exact length_skipSpaces_le cur

/-- Past the value that comes next inside the open containers; in an object it has a name. -/
def skipNext (steps : Nat) : List Container → Cursor → Reading Cursor
  | [], cur => .ok cur
  | .array :: outer, cur => skipInside steps (.array :: outer) cur
  | .object :: outer, cur =>
    (skipName steps cur).bind fun cur => skipInside steps (.object :: outer) cur

theorem skipInside_succ (steps : Nat) (outer : List Container) (cur : Cursor) :
    skipInside (steps + 1) outer cur = (skipToken steps cur).bind fun x =>
      (skipCloses steps x.1.isNone (x.1.toList ++ outer) x.2).bind fun y =>
        skipNext steps y.1 y.2 := by
  rw [skipInside]
  cases skipToken steps cur with
  | error e => rfl
  | ok x =>
    obtain ⟨opened, cur⟩ := x
    -- What follows the brackets that close is the same with and without a container that opens.
    cases opened
    case' none => generalize hcloses : skipCloses steps true outer cur = closes
    case' some container =>
      generalize hcloses : skipCloses steps false (container :: outer) cur = closes
    all_goals
      simp only [Option.isNone_none, Option.isNone_some, Option.toList_none, Option.toList_some,
        List.nil_append, List.cons_append, bind, Except.bind, hcloses]
      cases closes with
      | error e => rfl
      | ok y =>
        obtain ⟨inner, after⟩ := y
        cases inner with
        | nil => rfl
        | cons top inner =>
          cases top with
          | array => rfl
          | object =>
            simp only [skipNext, Except.bind]
            cases skipName steps after <;> rfl

/-- **With more steps than characters are left a value is passed over**, if it is with any number of
steps. -/
theorem skipInside_settles (cur : Cursor) : ∀ outer : List Container,
    Settles (cur.rest.length + 1) fun steps => skipInside steps outer cur := by
  induction hlength : cur.rest.length using Nat.strongRecOn generalizing cur with
  | _ length ih =>
    intro outer
    refine .succ nofun ?_
    simp only [skipInside_succ]
    refine .bind (hlength ▸ skipToken_settles cur) fun _ x htoken => ?_
    have hx : x.2.rest.length < length := hlength ▸ length_skipToken_lt htoken
    refine .bind ((skipCloses_settles _ _ _).mono hx) fun _ y hcloses => ?_
    obtain ⟨opened, after⟩ := y
    have hafter : after.rest.length < length := Nat.lt_of_le_of_lt (length_skipCloses_le hcloses) hx
    cases opened with
    | nil => exact .const _
    | cons top opened =>
      cases top with
      | array => exact (ih _ hafter after rfl _).mono hafter
      | object =>
        refine .bind ((skipName_settles after).mono (Nat.le_of_lt hafter)) fun _ value hname => ?_
        have hvalue := Nat.lt_trans (length_skipName_lt hname) hafter
        exact (ih _ hvalue value rfl _).mono hvalue

theorem skipNext_settles (outer : List Container) (cur : Cursor) :
    Settles (cur.rest.length + 1) fun steps => skipNext steps outer cur := by
  cases outer with
  | nil => exact .const _
  | cons top outer =>
    cases top with
    | array => exact skipInside_settles cur _
    | object =>
      refine .bind ((skipName_settles cur).mono (Nat.le_succ _)) fun _ value hname => ?_
      exact (skipInside_settles value _).mono (Nat.le_succ_of_le (length_skipName_lt hname))

theorem length_skipInside_lt {steps : Nat} : ∀ {outer : List Container} {cur : Cursor},
    skipInside steps outer cur = .ok next → next.rest.length < cur.rest.length := by
  induction steps with
  | zero => intro outer cur h; cases h
  | succ steps ih =>
    intro outer cur h
    rw [skipInside_succ] at h
    simp only [except_bind_eq_ok] at h
    obtain ⟨x, htoken, ⟨opened, after⟩, hcloses, hnext⟩ := h
    have hafter : after.rest.length < cur.rest.length :=
      Nat.lt_of_le_of_lt (length_skipCloses_le hcloses) (length_skipToken_lt htoken)
    cases opened with
    | nil =>
      cases hnext
      exact hafter
    | cons top opened =>
      cases top with
      | array => exact Nat.lt_trans (ih hnext) hafter
      | object =>
        rw [skipNext, except_bind_eq_ok] at hnext
        obtain ⟨value, hname, hnext⟩ := hnext
        exact Nat.lt_trans (ih hnext) (Nat.lt_trans (length_skipName_lt hname) hafter)

end MetricsBridge.Json.Cursor
