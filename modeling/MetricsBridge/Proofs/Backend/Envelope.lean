import MetricsBridge.Backend.Call
import MetricsBridge.Proofs.Json.Lookup

/-!
# Envelopes and their data

An envelope is read from an object by its members (`Envelope.read_eq_ok`), and so are the data of a
query (`Call.holds_of_queryData`).  All shapes of data keep pace with passing over.
-/
namespace MetricsBridge

open Json Json.Decoder

namespace Call

/-! ### Shapes -/

/-- The fields of the data of a query. -/
def queryEntries : List (Entry (Option Text × Option Json)) :=
  [entry "resultType" true Prod.fst (fun s v => (some v, s.2)) text,
   entry "result" false Prod.snd (fun s v => (s.1, some v)) json]

theorem keepsPace_queryEntries : ∀ e ∈ queryEntries, e.read.KeepsPace := by
  simp only [queryEntries, List.forall_mem_cons]
  exact ⟨keepsPace_entry keepsPace_text, keepsPace_entry keepsPace_json, by simp⟩

theorem keepsPace_queryData : queryData.KeepsPace := by
  refine (keepsPace_record "QueryData" (none, none) keepsPace_queryEntries).of_eq_ok ?_
  intro steps depth cur d next h
  simp only [queryData, bind_eq_ok, pure_eq_ok, Prod.mk.injEq] at h
  obtain ⟨⟨s, after⟩, hread, -, rfl⟩ := h
  exact ⟨s, hread⟩

theorem keepsPace_targetsData : targetsData.KeepsPace := by
  have hentries : ∀ e ∈ (
      [entry "activeTargets" false Prod.fst (fun s v => (some v, s.2)) (list json),
      entry "droppedTargets" false Prod.snd (fun s v => (s.1, some v)) (list json)] :
        List (Entry (Option (List Json) × Option (List Json)))), e.read.KeepsPace := by
    simp only [List.forall_mem_cons]
    exact ⟨keepsPace_entry keepsPace_json.list, keepsPace_entry keepsPace_json.list, by simp⟩
  refine (keepsPace_record "TargetsData" (none, none) hentries).of_eq_ok ?_
  intro steps depth cur d next h
  simp only [targetsData, bind_eq_ok, pure_eq_ok, Prod.mk.injEq] at h
  obtain ⟨⟨s, after⟩, hread, -, rfl⟩ := h
  exact ⟨s, hread⟩

theorem keepsPace_configData : configData.KeepsPace := by
  have hentries : ∀ e ∈ ([entry "yaml" false id (fun _ v => some v) text] :
      List (Entry (Option Text))), e.read.KeepsPace := by
    simp only [List.forall_mem_cons]
    exact ⟨keepsPace_entry keepsPace_text, by simp⟩
  refine (keepsPace_record "ConfigData" none hentries).of_eq_ok ?_
  intro steps depth cur d next h
  simp only [configData, bind_eq_ok, pure_eq_ok, Prod.mk.injEq] at h
  obtain ⟨⟨s, after⟩, hread, -, rfl⟩ := h
  exact ⟨s, hread⟩

theorem keepsPace_seriesLabels : seriesLabels.KeepsPace := by
  refine keepsPace_texts.of_eq_ok ?_
  intro steps depth cur d next h
  simp only [seriesLabels, bind_eq_ok, pure_eq_ok, Prod.mk.injEq] at h
  obtain ⟨⟨s, after⟩, hread, -, rfl⟩ := h
  exact ⟨s, hread⟩

end Call

/-! ### Envelopes -/

namespace Envelope

variable {α : Type} {shape : Json.Decoder α} {ms : List Member}

theorem keepsPace_entries (hshape : shape.KeepsPace) : ∀ e ∈ entries shape, e.read.KeepsPace := by
  simp only [entries, List.forall_mem_cons]
  exact ⟨keepsPace_entry keepsPace_text, keepsPace_entry hshape.optional,
    keepsPace_entry keepsPace_text.optional, keepsPace_entry keepsPace_text.optional,
    keepsPace_entry keepsPace_text.list, by simp⟩

theorem applyMembers_entries {p p' : Partial α} :
    applyMembers (entries shape) ms p = some p' ↔
      fieldAfter text "status" ms p.status = some p'.status ∧
      fieldAfter (optional shape) "data" ms p.data = some p'.data ∧
      fieldAfter (optional text) "errorType" ms p.errorType = some p'.errorType ∧
      fieldAfter (optional text) "error" ms p.error = some p'.error ∧
      fieldAfter (list text) "warnings" ms p.warnings = some p'.warnings := by
  induction ms generalizing p with
  | nil =>
    obtain ⟨_, _, _, _, _⟩ := p
    obtain ⟨_, _, _, _, _⟩ := p'
    simp [applyMembers, fieldAfter]
  | cons m ms ih =>
    simp only [fieldAfter]
    by_cases hstatus : m.name = "status".toList
    · rw [applyMembers_cons_entry (by rw [hstatus]; rfl)]
      cases hset : p.status <;> cases m.read text <;> simp [hstatus, Except.toOption, ih]
    by_cases hdata : m.name = "data".toList
    · rw [applyMembers_cons_entry (by rw [hdata]; rfl)]
      cases hset : p.data <;> cases m.read (optional shape) <;> simp [hdata, Except.toOption, ih]
    by_cases htype : m.name = "errorType".toList
    · rw [applyMembers_cons_entry (by rw [htype]; rfl)]
      cases hset : p.errorType <;> cases m.read (optional text) <;>
        simp [htype, Except.toOption, ih]
    by_cases herror : m.name = "error".toList
    · rw [applyMembers_cons_entry (by rw [herror]; rfl)]
      cases hset : p.error <;> cases m.read (optional text) <;> simp [herror, Except.toOption, ih]
    by_cases hwarnings : m.name = "warnings".toList
    · rw [applyMembers_cons_entry (by rw [hwarnings]; rfl)]
      cases hset : p.warnings <;> cases m.read (list text) <;>
        simp [hwarnings, Except.toOption, ih]
    · have hfind : (entries shape).find? (·.name == m.name) = none := by
        simp only [entries, entry, List.find?_eq_none, List.forall_mem_cons, beq_iff_eq]
        exact ⟨fun h => hstatus h.symm, fun h => hdata h.symm, fun h => htype h.symm,
          fun h => herror h.symm, fun h => hwarnings h.symm, by simp⟩
      rw [applyMembers, hfind, if_neg hstatus, if_neg hdata, if_neg htype, if_neg herror,
        if_neg hwarnings]
      exact ih

/-- **An envelope is read from an object** exactly if its fields can be read from the members of
their names and there is a status. -/
theorem read_eq_ok (hshape : shape.KeepsPace) {body : Text} (h : members.run body = .ok ms)
    {e : Envelope α} : read shape body = .ok e ↔ ∃ status data errorType error warnings,
      fieldAfter text "status" ms none = some (some status) ∧
      fieldAfter (optional shape) "data" ms none = some data ∧
      fieldAfter (optional text) "errorType" ms none = some errorType ∧
      fieldAfter (optional text) "error" ms none = some error ∧
      fieldAfter (list text) "warnings" ms none = some warnings ∧
      e = ⟨status, data.join, errorType.join, error.join, warnings.getD []⟩ := by
  have hrequired : ∀ p : Partial α,
      (∀ e ∈ entries shape, e.isRequired = true → e.isSet p = true) ↔ p.status.isSome = true := by
    intro p
    simp [entries, entry]
  simp only [read, bind_eq_ok, pure_eq_ok, run_record_eq_ok (keepsPace_entries hshape) h,
    applyMembers_entries, hrequired]
  constructor
  · rintro ⟨⟨status, data, errorType, error, warnings⟩, ⟨⟨hstatus, hdata, htype, herror, hwarnings⟩,
      hsome⟩, rfl⟩
    obtain ⟨status', rfl⟩ := Option.isSome_iff_exists.mp hsome
    exact ⟨status', data, errorType, error, warnings, hstatus, hdata, htype, herror, hwarnings, rfl⟩
  · rintro ⟨status, data, errorType, error, warnings, hstatus, hdata, htype, herror, hwarnings, rfl⟩
    exact ⟨⟨some status, data, errorType, error, warnings⟩,
      ⟨⟨hstatus, hdata, htype, herror, hwarnings⟩, rfl⟩, rfl⟩

/-- An envelope that is read from an object has members. -/
theorem exists_members_of_read (hshape : shape.KeepsPace) {body : Text}
    (hobject : (Cursor.start body).StartsObject) {e : Envelope α} (h : read shape body = .ok e) :
    ∃ ms, members.run body = .ok ms := by
  simp only [read, bind_eq_ok] at h
  obtain ⟨_, hrecord, -⟩ := h
  exact exists_members_of_run_record (keepsPace_entries hshape) hobject hrecord

end Envelope

/-! ### The data of a query -/

namespace Call

theorem applyMembers_queryEntries {ms : List Member} {p p' : Option Text × Option Json} :
    applyMembers queryEntries ms p = some p' ↔
      fieldAfter text "resultType" ms p.1 = some p'.1 ∧
      fieldAfter json "result" ms p.2 = some p'.2 := by
  induction ms generalizing p with
  | nil =>
    obtain ⟨_, _⟩ := p
    obtain ⟨_, _⟩ := p'
    simp [applyMembers, fieldAfter]
  | cons m ms ih =>
    simp only [fieldAfter]
    by_cases htype : m.name = "resultType".toList
    · rw [applyMembers_cons_entry (by rw [htype]; rfl)]
      cases hset : p.1 <;> cases m.read text <;> simp [htype, Except.toOption, ih]
    by_cases hresult : m.name = "result".toList
    · rw [applyMembers_cons_entry (by rw [hresult]; rfl)]
      cases hset : p.2 <;> cases m.read json <;> simp [hresult, Except.toOption, ih]
    · have hfind : queryEntries.find? (·.name == m.name) = none := by
        simp only [queryEntries, entry, List.find?_eq_none, List.forall_mem_cons, beq_iff_eq]
        exact ⟨fun h => htype h.symm, fun h => hresult h.symm, by simp⟩
      rw [applyMembers, hfind, if_neg htype, if_neg hresult]
      exact ih

/-- Data of a query that are there are read as a record. -/
theorem record_of_read_queryData {m : Member} {q : QueryData}
    (h : m.read (optional queryData) = .ok (some q)) : ∃ s next,
      record "QueryData" queryEntries (none, none) m.steps m.depth m.place.skipSpaces =
        .ok (s, next) ∧ q = ⟨s.1.getD [], s.2.getD .null⟩ := by
  rw [Member.read, except_map_eq_ok] at h
  obtain ⟨⟨_, next⟩, hread, rfl⟩ := h
  rw [Decoder.optional] at hread
  split at hread
  · simp only [bind_eq_ok, pure_eq_ok] at hread
    obtain ⟨_, -, heq⟩ := hread
    cases heq
  · simp only [queryData, bind_eq_ok, pure_eq_ok, Prod.mk.injEq] at hread
    obtain ⟨⟨_, _⟩, ⟨⟨⟨kind, result⟩, _⟩, hrecord, rfl, rfl⟩, heq, rfl⟩ := hread
    exact ⟨(kind, result), _, hrecord, (Option.some.inj heq).symm⟩

/-- Data of a query that are an object have members. -/
theorem exists_members_of_queryData {m : Member} {q : QueryData} (hobject : m.place.StartsObject)
    (hsteps : m.place.rest.length ≤ m.steps) (h : m.read (optional queryData) = .ok (some q)) :
    ∃ inner, m.read members = .ok inner := by
  obtain ⟨s, next, hrecord, -⟩ := record_of_read_queryData h
  have hobject' : m.place.skipSpaces.StartsObject := by
    rw [Cursor.StartsObject, Cursor.skipSpaces_skipSpaces]
    exact hobject
  obtain ⟨inner, hinner⟩ := exists_members_of_record keepsPace_queryEntries hobject'
    (Nat.le_trans (Cursor.length_skipSpaces_le _) hsteps) hrecord
  rw [members_skipSpaces] at hinner
  exact ⟨inner, except_map_eq_ok.mpr ⟨(inner, next), hinner, rfl⟩⟩

/-- **The data of a query**, where they are an object: one member says of what type the result is,
and one is the result unless there is none. -/
theorem holds_of_queryData {m : Member} {inner : List Member} {q : QueryData}
    (hinner : m.read members = .ok inner) (h : m.read (optional queryData) = .ok (some q)) :
    Holds inner "resultType" text q.resultType ∧
      (Member.named "result" inner = [] ∧ q.result = .null ∨
        Holds inner "result" json q.result) := by
  rw [Member.read, except_map_eq_ok] at hinner
  obtain ⟨⟨_, stop⟩, hmembers, rfl⟩ := hinner
  obtain ⟨⟨kind, result⟩, next, hrecord, rfl⟩ := record_of_read_queryData h
  rw [← members_skipSpaces] at hmembers
  obtain ⟨happly, hrequired, -⟩ := (record_eq_ok keepsPace_queryEntries hmembers).mp hrecord
  obtain ⟨hkind, hresult⟩ := applyMembers_queryEntries.mp happly
  have hsome : kind.isSome = true := hrequired _ List.mem_cons_self rfl
  obtain ⟨kind, rfl⟩ := Option.isSome_iff_exists.mp hsome
  refine ⟨fieldAfter_eq_some.mp hkind, ?_⟩
  cases result with
  | none => exact .inl ⟨fieldAfter_eq_none.mp hresult, rfl⟩
  | some result => exact .inr (fieldAfter_eq_some.mp hresult)

end Call

end MetricsBridge
