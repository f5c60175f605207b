import MetricsBridge.Proofs.Json.Decoder

/-!
# Members of objects

The members of an object are the names and the places of its values; to know them nothing but their
names has to be read.  An object that is read as a record has members (`exists_members_of_record`),
and a record is read from an object exactly if each of its fields can be read from the member of its
name (`record_eq_ok`), of which there may be one at most (`fieldAfter_eq_some`).
-/
namespace MetricsBridge.Json

/-- A member of an object: its name, and where its value stands, with the steps and the levels of
nesting that are left there. -/
structure Member where
  name : Text
  steps : Nat
  depth : Nat
  place : Cursor
  deriving DecidableEq, Repr

/-- What a decoder reads of the value of a member. -/
def Member.read {α : Type} (d : Decoder α) (m : Member) : Except ReadError α :=
  (d m.steps m.depth m.place).map Prod.fst

/-- An object comes next. -/
def Cursor.StartsObject (cur : Cursor) : Prop :=
  ∃ rest, cur.skipSpaces.rest = '\x7b' :: rest

/-- The members of a name. -/
def Member.named (name : String) (ms : List Member) : List Member :=
  ms.filter fun m => m.name == name.toList

namespace Decoder

variable {α β σ : Type} {ms : List Member}

/-- The members of an object, and its closing brace.  Their values are passed over. -/
def memberFields : (steps depth : Nat) → (isFirst : Bool) → Cursor → Reading (List Member × Cursor)
  | 0, _, _, cur => cur.fail .unfinishedObject
  | steps + 1, depth, isFirst, cur =>
    match cur.nextName isFirst with
    | .error e => .error e
    | .ok (false, cur) => .ok ([], cur.skipOne)
    | .ok (true, cur) => do
      let (name, cur) ← Cursor.quoted steps [] cur.skipOne
      let place ← cur.colon
      let cur ← place.skipValue steps
      let (ms, cur) ← memberFields steps depth false cur
      return (⟨name, steps, depth, place⟩ :: ms, cur)

/-- The members of an object, in the order they stand. -/
def members : Decoder (List Member) := fun steps depth cur =>
  let cur := cur.skipSpaces
  match cur.rest with
  | [] => cur.failNext .unfinishedValue
  | '\x7b' :: rest =>
    if depth ≤ 1 then cur.failNext .tooDeep
    else memberFields steps (depth - 1) true (cur.ahead 1 rest)
  | _ => wrongType "a map".toList steps cur

theorem record_of_brace {cur : Cursor} {rest : Text} (hcur : cur.skipSpaces.rest = '\x7b' :: rest)
    (name : String) (entries : List (Entry σ)) (start : σ) (steps depth : Nat) :
    record name entries start steps depth cur =
      if depth ≤ 1 then cur.skipSpaces.failNext .tooDeep
      else recordFields entries steps (depth - 1) true start (cur.skipSpaces.ahead 1 rest) := by
  rw [record, hcur]
  rfl

/-- Only an object has members, and only if it is not nested too deep. -/
theorem members_eq_ok {steps depth : Nat} {cur stop : Cursor} :
    members steps depth cur = .ok (ms, stop) ↔ ∃ rest, cur.skipSpaces.rest = '\x7b' :: rest ∧
      ¬ depth ≤ 1 ∧
      memberFields steps (depth - 1) true (cur.skipSpaces.ahead 1 rest) = .ok (ms, stop) := by
  rw [members]
  constructor
  · intro h
    split at h
    · cases h
    · next rest hcur =>
      split at h
      · cases h
      · next hdepth => exact ⟨rest, hcur, hdepth, h⟩
    · exact absurd h wrongType_ne_ok
  · rintro ⟨rest, hcur, hdepth, h⟩
    rw [hcur]
    exact (if_neg hdepth).trans h

/-- What becomes of a record by the members that follow, unless one of them comes twice or cannot be
read. -/
def applyMembers (entries : List (Entry σ)) : List Member → σ → Option σ
  | [], s => some s
  | m :: ms, s =>
    match entries.find? (·.name == m.name) with
    | none => applyMembers entries ms s
    | some e =>
      if e.isSet s then none
      else match m.read e.read with
        | .error _ => none
        | .ok change => applyMembers entries ms (change s)

theorem read_entry {name : String} {isRequired : Bool} {get : σ → Option β}
    {set : σ → β → σ} {d : Decoder β} (m : Member) :
    m.read (entry name isRequired get set d).read = (m.read d).map fun b s => set s b := by
  simp only [Member.read, entry, bind, Except.bind, pure, Except.pure]
  cases d m.steps m.depth m.place <;> rfl

/-- A member whose name is that of an entry sets its field, unless it is set already. -/
theorem applyMembers_cons_entry {entries : List (Entry σ)} {name : String}
    {isRequired : Bool} {get : σ → Option β} {set : σ → β → σ} {d : Decoder β} {m : Member}
    (hfind : entries.find? (·.name == m.name) = some (entry name isRequired get set d))
    (ms : List Member) (s : σ) : applyMembers entries (m :: ms) s =
      if (get s).isSome then none
      else (m.read d).toOption.bind fun b => applyMembers entries ms (set s b) := by
  rw [applyMembers, hfind]
  dsimp only
  rw [read_entry]
  cases m.read d <;> rfl

/-- **A record is read from an object** exactly if its members can be read in turn and those that
are required have come. -/
theorem recordFields_eq_ok {entries : List (Entry σ)} (hentries : ∀ e ∈ entries, e.read.KeepsPace)
    {steps : Nat} : ∀ {depth : Nat} {isFirst : Bool} {s s' : σ} {cur stop next : Cursor}
    {ms : List Member}, memberFields steps depth isFirst cur = .ok (ms, stop) →
    (recordFields entries steps depth isFirst s cur = .ok (s', next) ↔
      applyMembers entries ms s = some s' ∧
        (∀ e ∈ entries, e.isRequired = true → e.isSet s' = true) ∧ next = stop) := by
  induction steps with
  | zero => intro depth isFirst s s' cur stop next ms h; cases h
  | succ steps ih =>
    intro depth isFirst s s' cur stop next ms h
    rw [memberFields] at h
    rw [recordFields]
    cases hnext : cur.nextName isFirst with
    | error e =>
      rw [hnext] at h
      cases h
    | ok x =>
      obtain ⟨more, after⟩ := x
      rw [hnext] at h
      cases more with
      | false =>
        cases h
        have hmissing : (entries.find? fun e => e.isRequired && !e.isSet s) = none ↔
            ∀ e ∈ entries, e.isRequired = true → e.isSet s = true := by
          simp
        simp only [applyMembers, Option.some.injEq]
        cases hfind : entries.find? fun e => e.isRequired && !e.isSet s with
        | none =>
          simp only [Except.ok.injEq, Prod.mk.injEq]
          constructor
          · rintro ⟨rfl, rfl⟩
            exact ⟨rfl, hmissing.mp hfind, rfl⟩
          · rintro ⟨rfl, -, rfl⟩
            exact ⟨rfl, rfl⟩
        | some e =>
          simp only [Cursor.fail, reduceCtorEq, false_iff, not_and]
          rintro rfl hrequired
          rw [hmissing.mpr hrequired] at hfind
          cases hfind
      | true =>
        simp only [bind_eq_ok, pure_eq_ok] at h
        obtain ⟨⟨name, behind⟩, hname, place, hcolon, after', hskip, ⟨ms, stop'⟩, hms, heq⟩ := h
        cases heq
        dsimp only at hcolon
        simp only [hname, applyMembers, bind, Except.bind, hcolon]
        cases hfind : entries.find? (·.name == name) with
        | none =>
          simp only [hskip]
          exact ih hms
        | some e =>
          by_cases hset : e.isSet s = true
          · simp only [hset, if_true, Cursor.fail, reduceCtorEq, false_and]
          · simp only [hset, if_false, Bool.false_eq_true, Member.read]
            cases hread : e.read steps depth place with
            | error error => simp only [Except.map, reduceCtorEq, false_and]
            | ok x =>
              obtain ⟨change, ends⟩ := x
              have hpace : after' = ends :=
                (hentries e (List.mem_of_find?_eq_some hfind)).skipValue hread hskip
              subst hpace
              exact ih hms

/-! ### Objects that can be read -/

/-- Behind a name and its value less is left, and so many steps pass over the value. -/
theorem skipValue_of_field {steps : Nat} {isFirst : Bool} {cur after behind place last : Cursor}
    (hnext : cur.nextName isFirst = .ok (true, after)) {name : Text}
    (hname : Cursor.quoted steps [] after.skipOne = .ok (name, behind))
    (hcolon : behind.colon = .ok place) (hlast : ∃ steps, place.skipValue steps = .ok last)
    (hsteps : cur.rest.length ≤ steps) : place.rest.length < cur.rest.length ∧
      last.rest.length < cur.rest.length ∧ place.skipValue steps = .ok last := by
  have hplace : place.rest.length < cur.rest.length := by
    obtain ⟨steps', hquoted⟩ := Cursor.exists_skipQuoted hname
    have hbehind := Cursor.length_skipQuoted_lt hquoted
    have hafter := Cursor.length_nextName_le hnext
    have hone := Cursor.length_skipOne_le after
    have hcolon := Cursor.length_colon_lt hcolon
    omega
  obtain ⟨steps', hlast⟩ := hlast
  refine ⟨hplace, Nat.lt_trans (Cursor.length_skipInside_lt hlast) hplace, ?_⟩
  exact Cursor.skipInside_settles place [] hlast (Nat.le_trans hplace hsteps)

/-- An object that is read as a record has members. -/
theorem exists_memberFields_of_recordFields {entries : List (Entry σ)}
    (hentries : ∀ e ∈ entries, e.read.KeepsPace) {steps : Nat} : ∀ {depth : Nat} {isFirst : Bool}
    {s s' : σ} {cur next : Cursor}, cur.rest.length < steps →
    recordFields entries steps depth isFirst s cur = .ok (s', next) →
    ∃ ms, memberFields steps depth isFirst cur = .ok (ms, next) := by
  induction steps with
  | zero => intro depth isFirst s s' cur next _ h; cases h
  | succ steps ih =>
    intro depth isFirst s s' cur next hsteps h
    rw [recordFields] at h
    rw [memberFields]
    cases hnext : cur.nextName isFirst with
    | error e =>
      rw [hnext] at h
      cases h
    | ok x =>
      obtain ⟨more, after⟩ := x
      rw [hnext] at h
      cases more with
      | false =>
        dsimp only at h
        split at h
        · cases h
        · cases h
          exact ⟨[], rfl⟩
      | true =>
        dsimp only at h
        split at h
        · cases h
        · next change last hfield =>
          simp only [bind_eq_ok] at hfield
          obtain ⟨⟨name, behind⟩, hname, hfield⟩ := hfield
          -- Known or not, the value of the field can be passed over.
          have hpasses : ∃ place, behind.colon = .ok place ∧
              ∃ steps, place.skipValue steps = .ok last := by
            dsimp only at hfield
            split at hfield
            · simp only [bind_eq_ok, pure_eq_ok] at hfield
              obtain ⟨place, hcolon, _, hskip, heq⟩ := hfield
              cases heq
              exact ⟨place, hcolon, steps, hskip⟩
            · next e he =>
              split at hfield
              · cases hfield
              · simp only [bind_eq_ok] at hfield
                obtain ⟨place, hcolon, hread⟩ := hfield
                have hpace := hentries e (List.mem_of_find?_eq_some he)
                exact ⟨place, hcolon, (hpace.skipValue_iff hread).mpr rfl⟩
          obtain ⟨place, hcolon, hpasses⟩ := hpasses
          obtain ⟨-, hlength, hskip⟩ :=
            skipValue_of_field hnext hname hcolon hpasses (Nat.le_of_lt_succ hsteps)
          obtain ⟨ms, hms⟩ := ih (Nat.lt_of_lt_of_le hlength (Nat.le_of_lt_succ hsteps)) h
          refine ⟨⟨name, steps, depth, place⟩ :: ms, ?_⟩
          simp only [bind_eq_ok, pure_eq_ok]
          exact ⟨_, hname, place, hcolon, last, hskip, _, hms, rfl⟩

/-- A member leaves so many steps that its value can be passed over. -/
theorem length_place_le {steps : Nat} : ∀ {depth : Nat} {isFirst : Bool} {cur stop : Cursor}
    {ms : List Member}, cur.rest.length < steps →
    memberFields steps depth isFirst cur = .ok (ms, stop) →
    ∀ m ∈ ms, m.place.rest.length ≤ m.steps := by
  induction steps with
  | zero => intro depth isFirst cur stop ms _ h; cases h
  | succ steps ih =>
    intro depth isFirst cur stop ms hsteps h
    rw [memberFields] at h
    split at h
    · cases h
    · cases h
      exact fun m hm => absurd hm List.not_mem_nil
    · next after hnext =>
      simp only [bind_eq_ok, pure_eq_ok] at h
      obtain ⟨⟨name, behind⟩, hname, place, hcolon, last, hskip, ⟨ms, _⟩, hms, heq⟩ := h
      cases heq
      have hle := Nat.le_of_lt_succ hsteps
      obtain ⟨hplace, hlast, -⟩ := skipValue_of_field hnext hname hcolon ⟨steps, hskip⟩ hle
      refine List.forall_mem_cons.mpr ⟨Nat.le_trans (Nat.le_of_lt hplace) hle, ?_⟩
      exact ih (Nat.lt_of_lt_of_le hlast hle) hms

/-- **An object that is read as a record has members.** -/
theorem exists_members_of_record {name : String} {entries : List (Entry σ)}
    (hentries : ∀ e ∈ entries, e.read.KeepsPace) {start s : σ} {steps depth : Nat}
    {cur next : Cursor} (hobject : cur.StartsObject) (hsteps : cur.rest.length ≤ steps)
    (h : record name entries start steps depth cur = .ok (s, next)) :
    ∃ ms, members steps depth cur = .ok (ms, next) := by
  obtain ⟨rest, hcur⟩ := hobject
  have hrest := Cursor.length_of_skipSpaces hcur
  rw [record_of_brace hcur] at h
  split at h
  · cases h
  · next hdepth =>
    obtain ⟨ms, hms⟩ :=
      exists_memberFields_of_recordFields hentries (Nat.lt_of_lt_of_le hrest hsteps) h
    exact ⟨ms, members_eq_ok.mpr ⟨rest, hcur, hdepth, hms⟩⟩

theorem members_skipSpaces (steps depth : Nat) (cur : Cursor) :
    members steps depth cur.skipSpaces = members steps depth cur := by
  rw [members, members, Cursor.skipSpaces_skipSpaces]

/-- An object whose members are known is read as a record by them. -/
theorem record_eq_ok {name : String} {entries : List (Entry σ)}
    (hentries : ∀ e ∈ entries, e.read.KeepsPace) {start s : σ} {steps depth : Nat}
    {cur stop next : Cursor} (h : members steps depth cur = .ok (ms, stop)) :
    record name entries start steps depth cur = .ok (s, next) ↔
      applyMembers entries ms start = some s ∧
        (∀ e ∈ entries, e.isRequired = true → e.isSet s = true) ∧ next = stop := by
  obtain ⟨rest, hcur, hdepth, hms⟩ := members_eq_ok.mp h
  rw [record_of_brace hcur, if_neg hdepth]
  exact recordFields_eq_ok hentries hms

theorem run_record_eq_ok {name : String} {entries : List (Entry σ)}
    (hentries : ∀ e ∈ entries, e.read.KeepsPace) {start s : σ} {t : Text}
    (h : members.run t = .ok ms) : (record name entries start).run t = .ok s ↔
      applyMembers entries ms start = some s ∧
        ∀ e ∈ entries, e.isRequired = true → e.isSet s = true := by
  simp only [run, bind_eq_ok, pure_eq_ok] at h ⊢
  obtain ⟨⟨ms', stop⟩, hread, finished, hfinish, heq⟩ := h
  subst heq
  constructor
  · rintro ⟨⟨s', next⟩, hrecord, -, -, rfl⟩
    obtain ⟨happly, hrequired, -⟩ := (record_eq_ok hentries hread).mp hrecord
    exact ⟨happly, hrequired⟩
  · rintro ⟨happly, hrequired⟩
    exact ⟨(s, stop), (record_eq_ok hentries hread).mpr ⟨happly, hrequired, rfl⟩, finished, hfinish,
      rfl⟩

theorem length_place_le_of_run {t : Text} (h : members.run t = .ok ms) :
    ∀ m ∈ ms, m.place.rest.length ≤ m.steps := by
  simp only [run, bind_eq_ok, pure_eq_ok] at h
  obtain ⟨⟨_, next⟩, hms, _, -, rfl⟩ := h
  obtain ⟨rest, hcur, -, hms⟩ := members_eq_ok.mp hms
  refine length_place_le ?_ hms
  have hlength := Cursor.length_of_skipSpaces hcur
  simp only [Cursor.start, Cursor.enoughSteps, Cursor.ahead] at hlength ⊢
  omega

/-- A text that is read as a record, and starts with a brace, has members. -/
theorem exists_members_of_run_record {name : String} {entries : List (Entry σ)}
    (hentries : ∀ e ∈ entries, e.read.KeepsPace) {start s : σ} {t : Text}
    (hobject : (Cursor.start t).StartsObject) (h : (record name entries start).run t = .ok s) :
    ∃ ms, members.run t = .ok ms := by
  simp only [run, bind_eq_ok, pure_eq_ok] at h ⊢
  obtain ⟨⟨_, next⟩, hread, finished, hfinish, -⟩ := h
  have hsteps : (Cursor.start t).rest.length ≤ Cursor.enoughSteps t := by
    simp only [Cursor.start, Cursor.enoughSteps]
    omega
  obtain ⟨ms, hms⟩ := exists_members_of_record hentries hobject hsteps hread
  exact ⟨ms, (ms, next), hms, finished, hfinish, rfl⟩

/-- A text is read alike where it may be absent. -/
theorem read_optional_text {m : Member} {t : Text} (h : m.read text = .ok t) :
    m.read (optional text) = .ok (some t) := by
  rw [Member.read, except_map_eq_ok] at h ⊢
  obtain ⟨⟨t', next⟩, hread, rfl⟩ := h
  refine ⟨(some t', next), ?_, rfl⟩
  have hspaces : text m.steps m.depth m.place.skipSpaces = .ok (t', next) := by
    rw [text, Cursor.skipSpaces_skipSpaces]
    exact hread
  rw [Decoder.optional]
  split
  · next rest hcur =>
    rw [text, hcur] at hread
    exact absurd hread wrongType_ne_ok
  · rw [hspaces]
    rfl

/-! ### One field of a record -/

/-- What becomes of a field by the members that follow, unless it comes twice or cannot be read. -/
def fieldAfter (d : Decoder β) (name : String) : List Member → Option β → Option (Option β)
  | [], old => some old
  | m :: ms, old =>
    if m.name = name.toList then
      if old.isSome then none
      else (m.read d).toOption.bind fun b => fieldAfter d name ms (some b)
    else fieldAfter d name ms old

theorem fieldAfter_of_some {d : Decoder β} {name : String} {b : β} {new : Option β} :
    fieldAfter d name ms (some b) = some new ↔ Member.named name ms = [] ∧ new = some b := by
  induction ms with
  | nil => simp [fieldAfter, Member.named, eq_comm]
  | cons m ms ih =>
    rw [fieldAfter, Member.named, List.filter_cons]
    by_cases hm : m.name = name.toList
    · simp [hm]
    · rw [if_neg hm, ih, Member.named]
      simp [hm]

/-- **A field is left out** where no member has its name. -/
theorem fieldAfter_eq_none {d : Decoder β} {name : String} :
    fieldAfter d name ms none = some none ↔ Member.named name ms = [] := by
  induction ms with
  | nil => simp [fieldAfter, Member.named]
  | cons m ms ih =>
    rw [fieldAfter, Member.named, List.filter_cons]
    by_cases hm : m.name = name.toList
    · cases hread : m.read d with
      | error e => simp [hm, Except.toOption]
      | ok b => simp [hm, Except.toOption, fieldAfter_of_some]
    · rw [if_neg hm, ih, Member.named]
      simp [hm]

/-- **A field is set** where one member has its name and can be read. -/
theorem fieldAfter_eq_some {d : Decoder β} {name : String} {b : β} :
    fieldAfter d name ms none = some (some b) ↔
      ∃ m, Member.named name ms = [m] ∧ m.read d = .ok b := by
  induction ms with
  | nil => simp [fieldAfter, Member.named]
  | cons m ms ih =>
    rw [fieldAfter, Member.named, List.filter_cons]
    by_cases hm : m.name = name.toList
    · cases hread : m.read d with
      | error e => simp [hm, hread, Except.toOption]
      | ok b' =>
        simp only [hm, Except.toOption, Option.isSome_none, Bool.false_eq_true, if_true,
          if_false, Option.bind_some, fieldAfter_of_some, Option.some.injEq, Member.named,
          beq_self_eq_true, List.cons.injEq]
        constructor
        · rintro ⟨hms, rfl⟩
          exact ⟨m, ⟨rfl, hms⟩, hread⟩
        · rintro ⟨m', ⟨rfl, hms⟩, hread'⟩
          rw [hread, Except.ok.injEq] at hread'
          exact ⟨hms, hread'.symm⟩
    · rw [if_neg hm, ih, Member.named]
      simp [hm]

/-- The one member of a name sets its field. -/
theorem fieldAfter_of_unique {d : Decoder β} {name : String} {b : β}
    (hne : Member.named name ms ≠ []) (hlength : (Member.named name ms).length ≤ 1)
    (hread : ∀ m ∈ Member.named name ms, m.read d = .ok b) :
    fieldAfter d name ms none = some (some b) := by
  have hone := Nat.le_antisymm hlength (List.length_pos_iff.mpr hne)
  obtain ⟨m, hms⟩ := List.length_eq_one_iff.mp hone
  exact fieldAfter_eq_some.mpr ⟨m, hms, hread m (hms ▸ List.mem_singleton_self m)⟩

/-- A field can be read unless several members have its name or the one that has it cannot be read.
-/
theorem exists_fieldAfter {d : Decoder β} {name : String} :
    (∃ new, fieldAfter d name ms none = some new) ↔
      (Member.named name ms).length ≤ 1 ∧ ∀ m ∈ Member.named name ms, ∃ b, m.read d = .ok b := by
  constructor
  · rintro ⟨new, hnew⟩
    cases new with
    | none => simp [fieldAfter_eq_none.mp hnew]
    | some b =>
      obtain ⟨m, hm, hread⟩ := fieldAfter_eq_some.mp hnew
      simp [hm, hread]
  · rintro ⟨hlength, hread⟩
    cases hms : Member.named name ms with
    | nil => exact ⟨none, fieldAfter_eq_none.mpr hms⟩
    | cons m rest =>
      obtain ⟨b, hb⟩ := hread m (hms ▸ List.mem_cons_self)
      rw [hms, List.length_cons] at hlength
      obtain rfl : rest = [] := List.length_eq_zero_iff.mp (by omega)
      exact ⟨some b, fieldAfter_eq_some.mpr ⟨m, hms, hb⟩⟩

end Decoder

end MetricsBridge.Json
