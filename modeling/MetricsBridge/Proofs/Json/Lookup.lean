import MetricsBridge.Proofs.Json.Members
import MetricsBridge.Proofs.Json.Scalar
import MetricsBridge.Proofs.Text.Table

/-!
# Members and fields

An object can be read as a value, whose fields are looked up by their names, or taken apart into its
members.  The one member of a name is the field of that name (`get?_of_members`).
-/
namespace MetricsBridge.Json

/-- One member of the object has the name, and it is read as `a`. -/
def Holds {α : Type} (ms : List Member) (name : String) (d : Decoder α) (a : α) : Prop :=
  ∃ m, Member.named name ms = [m] ∧ m.read d = .ok a

/-! ### More steps -/

/-- The second computation succeeds with what the first brings. -/
def Extends {α : Type} (x y : Reading α) : Prop :=
  ∀ a, x = .ok a → y = .ok a

section Extends

variable {α β : Type} {x y : Reading α}

theorem Extends.refl (x : Reading α) : Extends x x :=
  fun _ h => h

theorem Extends.ite {p : Prop} [Decidable p] {x' y' : Reading α} (h : Extends x y)
    (h' : Extends x' y') : Extends (if p then x else x') (if p then y else y') := by
  split
  · exact h
  · exact h'

theorem Extends.bind {f : α → Reading β} (h : Extends x y) : Extends (x >>= f) (y >>= f) := by
  intro b hb
  obtain ⟨a, ha, hf⟩ := bind_eq_ok.mp hb
  exact bind_eq_ok.mpr ⟨a, h a ha, hf⟩

end Extends

namespace Cursor

theorem quoted_extends {steps : Nat} : ∀ (read : Text) (cur : Cursor),
    Extends (quoted steps read cur) (quoted (steps + 1) read cur) := by
  induction steps with
  | zero => intro read cur a h; cases h
  | succ steps ih =>
    intro read cur
    rw [quoted, quoted]
    cases cur.rest with
    | nil => exact .refl _
    | cons c rest =>
      dsimp only
      refine .ite (.refl _) (.ite ?_ (.ite (.refl _) (ih _ _)))
      cases (cur.ahead 1 rest).escape with
      | error e => exact .refl _
      | ok x => exact ih _ _

/-- The three readings that call each other, with one step more. -/
theorem reading_extends (steps : Nat) :
    (∀ depth cur, Extends (value steps depth cur) (value (steps + 1) depth cur)) ∧
    (∀ depth isFirst read cur,
      Extends (items steps depth isFirst read cur) (items (steps + 1) depth isFirst read cur)) ∧
    ∀ depth isFirst read cur,
      Extends (fields steps depth isFirst read cur)
        (fields (steps + 1) depth isFirst read cur) := by
  induction steps with
  | zero =>
    refine ⟨?_, ?_, ?_⟩
    · intro depth cur a h
      cases h
    · intro depth isFirst read cur a h
      cases h
    · intro depth isFirst read cur a h
      cases h
  | succ steps ih =>
    obtain ⟨ihvalue, ihitems, ihfields⟩ := ih
    refine ⟨?_, ?_, ?_⟩
    · intro depth cur
      rw [value, value]
      dsimp only
      cases cur.skipSpaces.rest with
      | nil => exact .refl _
      | cons c rest =>
        refine .ite (.refl _) (.ite (.refl _) (.ite (.refl _) (.ite (.refl _) (.ite (.refl _) ?_))))
        refine .ite (quoted_extends _ _).bind (.ite (.ite (.refl _) (ihitems _ _ _ _)) ?_)
        exact .ite (.ite (.refl _) (ihfields _ _ _ _)) (.refl _)
    · intro depth isFirst read cur
      rw [items, items]
      cases cur.nextItem isFirst with
      | error e => exact .refl _
      | ok x =>
        obtain ⟨more, next⟩ := x
        cases more with
        | false => exact .refl _
        | true =>
          intro a h
          dsimp only at h ⊢
          cases hitem : value steps depth next with
          | error e =>
            rw [hitem] at h
            cases h
          | ok x =>
            rw [hitem] at h
            rw [ihvalue depth next x hitem]
            exact ihitems depth false _ _ a h
    · intro depth isFirst read cur
      rw [fields, fields]
      cases cur.nextName isFirst with
      | error e => exact .refl _
      | ok x =>
        obtain ⟨more, next⟩ := x
        cases more with
        | false => exact .refl _
        | true =>
          intro a h
          dsimp only at h ⊢
          split at h
          · cases h
          · next all after hfield =>
            simp only [bind_eq_ok, pure_eq_ok] at hfield
            obtain ⟨⟨name, behind⟩, hname, place, hcolon, ⟨v, last⟩, hvalue, heq⟩ := hfield
            cases heq
            simp only [quoted_extends _ _ _ hname, hcolon, ihvalue _ _ _ hvalue, bind, Except.bind,
              pure, Except.pure]
            exact ihfields depth false _ _ a h

theorem value_extends (steps depth : Nat) (cur : Cursor) :
    Extends (value steps depth cur) (value (steps + 1) depth cur) :=
  (reading_extends steps).1 depth cur

end Cursor

/-! ### Members -/

section Members

open Decoder (memberFields members json)

variable {steps depth : Nat} {isFirst : Bool} {cur next stop : Cursor} {ms : List Member}

/-- The values of the members are nested in the object alone. -/
theorem depth_of_memberFields : ∀ {isFirst : Bool} {cur : Cursor} {ms : List Member},
    memberFields steps depth isFirst cur = .ok (ms, stop) → ∀ m ∈ ms, m.depth = depth := by
  induction steps with
  | zero => intro isFirst cur ms h; cases h
  | succ steps ih =>
    intro isFirst cur ms h
    rw [memberFields] at h
    split at h
    · cases h
    · cases h
      exact fun m hm => absurd hm List.not_mem_nil
    · simp only [bind_eq_ok, pure_eq_ok] at h
      obtain ⟨_, -, _, -, _, -, ⟨ms, _⟩, hms, heq⟩ := h
      cases heq
      exact List.forall_mem_cons.mpr ⟨rfl, ih hms⟩

theorem depth_le_of_members (h : members steps depth cur = .ok (ms, stop)) :
    ∀ m ∈ ms, m.depth ≤ depth := by
  obtain ⟨rest, -, -, hms⟩ := Decoder.members_eq_ok.mp h
  intro m hm
  rw [depth_of_memberFields hms m hm]
  exact Nat.sub_le depth 1

/-- What is looked up in an object behind the fields that have been read: nothing new if no member
has the name, and else the value of the one that has it. -/
theorem get?_of_memberFields : ∀ {isFirst : Bool} {cur : Cursor} {ms : List Member}
    {read : List Field} {j : Json}, memberFields steps depth isFirst cur = .ok (ms, stop) →
    Cursor.fields steps depth isFirst read cur = .ok (j, next) →
    ∃ all, j = .object all ∧ ∀ name : String,
      (Member.named name ms = [] → Table.get? all name.toList = Table.get? read name.toList) ∧
      ∀ m, Member.named name ms = [m] →
        ∃ v, m.read json = .ok v ∧ Table.get? all name.toList = some v := by
  induction steps with
  | zero => intro isFirst cur ms read j h; cases h
  | succ steps ih =>
    intro isFirst cur ms read j h hj
    rw [memberFields] at h
    rw [Cursor.fields] at hj
    cases hnext : cur.nextName isFirst with
    | error e =>
      rw [hnext] at h
      cases h
    | ok x =>
      obtain ⟨more, after⟩ := x
      rw [hnext] at h hj
      cases more with
      | false =>
        cases h
        cases hj
        refine ⟨read, rfl, fun name => ⟨fun _ => rfl, fun m hm => ?_⟩⟩
        exact absurd hm (List.cons_ne_nil m []).symm
      | true =>
        simp only [bind_eq_ok, pure_eq_ok] at h
        obtain ⟨⟨name, behind⟩, hname, place, hcolon, after', hskip, ⟨ms, _⟩, hms, heq⟩ := h
        cases heq
        dsimp only at hcolon hj
        simp only [hname, hcolon, bind, Except.bind] at hj
        cases hvalue : Cursor.value steps depth place with
        | error e =>
          rw [hvalue] at hj
          cases hj
        | ok x =>
          obtain ⟨v, last⟩ := x
          obtain rfl : after' = last := Decoder.keepsPace_json.skipValue hvalue hskip
          rw [hvalue] at hj
          obtain ⟨all, rfl, hall⟩ := ih hms hj
          refine ⟨all, rfl, fun name' => ?_⟩
          obtain ⟨hnone, hone⟩ := hall name'
          rw [Member.named, List.filter_cons]
          by_cases hname' : name = name'.toList
          · subst hname'
            rw [beq_self_eq_true, if_pos rfl]
            refine ⟨fun h => absurd h (List.cons_ne_nil _ _), fun m hm => ?_⟩
            obtain ⟨rfl, hlater⟩ := List.cons.inj hm
            refine ⟨v, ?_, ?_⟩
            · rw [Member.read, json, hvalue]
              rfl
            · rw [hnone hlater, Table.get?_set_self]
          · rw [beq_false_of_ne hname', if_neg Bool.false_ne_true]
            rw [Table.get?_set_of_ne (Ne.symm hname')] at hnone
            exact ⟨hnone, hone⟩

/-- **The one member of a name is the field of that name.** -/
theorem get?_of_members {j : Json} (hms : members steps depth cur = .ok (ms, stop))
    (hj : Cursor.value steps depth cur = .ok (j, next)) (name : String) :
    (Member.named name ms = [] → j.get? name.toList = none) ∧
    ∀ m, Member.named name ms = [m] → ∃ v, m.read json = .ok v ∧ j.get? name.toList = some v := by
  have hj' := Cursor.value_extends _ _ _ _ hj
  obtain ⟨rest, hcur, hdepth, hms'⟩ := Decoder.members_eq_ok.mp hms
  rw [Cursor.value_of_brace hcur, if_neg hdepth] at hj'
  obtain ⟨all, rfl, hall⟩ := get?_of_memberFields hms' hj'
  exact hall name

theorem get?_of_run {t : Text} {j : Json} (hms : members.run t = .ok ms)
    (hj : Json.parse t = .ok j) (name : String) :
    (Member.named name ms = [] → j.get? name.toList = none) ∧
    ∀ m, Member.named name ms = [m] → ∃ v, m.read json = .ok v ∧ j.get? name.toList = some v := by
  simp only [Decoder.run, Json.parse, bind_eq_ok, pure_eq_ok] at hms hj
  obtain ⟨⟨_, _⟩, hms, _, -, rfl⟩ := hms
  obtain ⟨⟨_, _⟩, hj, _, -, rfl⟩ := hj
  exact get?_of_members hms hj name

/-- A value that is there is read alike where it may be absent. -/
theorem read_of_read_optional_json {m : Member} {j : Json}
    (h : m.read (Decoder.optional json) = .ok (some j)) : m.read json = .ok j := by
  rw [Member.read, except_map_eq_ok] at h ⊢
  obtain ⟨⟨_, next⟩, hread, rfl⟩ := h
  rw [Decoder.optional] at hread
  split at hread
  · simp only [bind_eq_ok, pure_eq_ok] at hread
    obtain ⟨_, -, heq⟩ := hread
    cases heq
  · simp only [bind_eq_ok, pure_eq_ok] at hread
    obtain ⟨⟨j', after⟩, hvalue, heq⟩ := hread
    cases heq
    refine ⟨(j', after), ?_, rfl⟩
    rw [json] at hvalue ⊢
    cases hsteps : m.steps with
    | zero =>
      rw [hsteps] at hvalue
      cases hvalue
    | succ steps =>
      rw [hsteps, Cursor.value_skipSpaces] at hvalue
      exact hvalue

/-- A text is the value of its member. -/
theorem eq_text_of_read {m : Member} {t : Text} {j : Json} (ht : m.read Decoder.text = .ok t)
    (hj : m.read json = .ok j) : j = .text t := by
  rw [Member.read, except_map_eq_ok] at ht hj
  obtain ⟨⟨_, next⟩, ht, rfl⟩ := ht
  obtain ⟨⟨_, stop⟩, hj, rfl⟩ := hj
  have hj' := Cursor.value_extends _ _ _ _ hj
  rw [Decoder.text] at ht
  split at ht
  · cases ht
  · next rest hcur =>
    rw [← Cursor.value_skipSpaces, Cursor.value_of_quote hcur, except_bind_eq_ok] at hj'
    obtain ⟨x, hquoted, heq⟩ := hj'
    cases heq
    cases ht.symm.trans hquoted
    rfl
  · exact absurd ht Decoder.wrongType_ne_ok

end Members

end MetricsBridge.Json
