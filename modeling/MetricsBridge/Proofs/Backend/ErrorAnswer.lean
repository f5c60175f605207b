import MetricsBridge.Proofs.Backend.Envelope
import MetricsBridge.Proofs.Backend.Sending

/-!
# Answers that report an error

An answer that reports an error is read as an envelope exactly if it is legible: no field comes
twice, and the data, which every call reads in its own shape, have that shape (`read_of_isLegible`,
`isLegible_of_read`).  Otherwise it counts as no envelope at all.  So the error is passed on exactly
if the answer is legible (`error_answer_iff`), and lost where, for instance, a query gets empty
data.
-/
namespace MetricsBridge

open Json Json.Decoder

/-- The calls of the API, and how their data are read. -/
inductive HasShape : {α : Type} → Except CallError (Call α) → Json.Decoder α → Prop
  | query (expr : Text) (time : Option Text) (options : QueryOptions) :
      HasShape (Call.query expr time options) Call.queryData
  | queryRange (expr start stop step : Text) (options : QueryOptions) :
      HasShape (Call.queryRange expr start stop step options) Call.queryData
  | queryExemplars (expr start stop : Text) : HasShape (Call.queryExemplars expr start stop) json
  | metricNames (options : SelectorOptions) : HasShape (Call.metricNames options) (list text)
  | labelNames (options : SelectorOptions) : HasShape (Call.labelNames options) (list text)
  | labelValues (label : Text) (options : SelectorOptions) :
      HasShape (Call.labelValues label options) (list text)
  | series (options : SelectorOptions) : HasShape (Call.series options) (list Call.seriesLabels)
  | metricMetadata (metric : Text) (limit : Option Text) :
      HasShape (Call.metricMetadata metric limit) json
  | targetsMetadata (target metric limit : Option Text) :
      HasShape (Call.targetsMetadata target metric limit) json
  | targets : HasShape (.ok Call.targets) Call.targetsData
  | alerts : HasShape (.ok Call.alerts) json
  | alertmanagers : HasShape (.ok Call.alertmanagers) json
  | rules : HasShape (.ok Call.rules) json
  | buildInfo : HasShape (.ok Call.buildInfo) json
  | runtimeInfo : HasShape (.ok Call.runtimeInfo) json
  | flags : HasShape (.ok Call.flags) json
  | statusConfig : HasShape (.ok Call.statusConfig) Call.configData
  | tsdbStats (limit : Option Text) : HasShape (Call.tsdbStats limit) json

/-- An answer that reports an error: the status is a text other than that of success, kind and text
of the error are texts, and the warnings, if there are any, are a list of texts. -/
structure IsErrorAnswer (ms : List Member) (kind message : Text) : Prop where
  status : Member.named "status" ms ≠ [] ∧
    ∀ m ∈ Member.named "status" ms, ∃ s, m.read text = .ok s ∧ s ≠ "success".toList
  errorType : Member.named "errorType" ms ≠ [] ∧
    ∀ m ∈ Member.named "errorType" ms, m.read text = .ok kind
  error : Member.named "error" ms ≠ [] ∧ ∀ m ∈ Member.named "error" ms, m.read text = .ok message
  warnings : ∀ m ∈ Member.named "warnings" ms, ∃ ws, m.read (list text) = .ok ws

/-- The names of the fields of an envelope. -/
def Envelope.names : List String :=
  ["status", "data", "errorType", "error", "warnings"]

/-- No field of the envelope comes twice, and the data, if there are any, are as the call expects
them. -/
def IsLegible {α : Type} (shape : Json.Decoder α) (ms : List Member) : Prop :=
  (∀ name ∈ Envelope.names, (Member.named name ms).length ≤ 1) ∧
    ∀ m ∈ Member.named "data" ms, ∃ data, m.read (optional shape) = .ok data

/-! ### Shapes -/

section Shapes

variable {α : Type} {call : Except CallError (Call α)} {shape : Json.Decoder α}

theorem HasShape.keepsPace (h : HasShape call shape) : shape.KeepsPace := by
  cases h with
  | query | queryRange => exact Call.keepsPace_queryData
  | metricNames | labelNames | labelValues => exact keepsPace_text.list
  | series => exact Call.keepsPace_seriesLabels.list
  | targets => exact Call.keepsPace_targetsData
  | statusConfig => exact Call.keepsPace_configData
  | queryExemplars | metricMetadata | targetsMetadata | alerts | alertmanagers | rules | buildInfo
  | runtimeInfo | flags | tsdbStats => exact keepsPace_json

theorem HasShape.shape_eq (h : HasShape call shape) {k : Call α} (hk : call = .ok k) :
    k.shape = shape := by
  cases h with
  | query =>
    simp only [Call.query, bind_eq_ok, pure_eq_ok] at hk
    obtain ⟨_, -, _, -, _, -, rfl⟩ := hk
    rfl
  | queryRange =>
    simp only [Call.queryRange, bind_eq_ok, pure_eq_ok] at hk
    obtain ⟨_, -, _, -, _, -, _, -, _, -, rfl⟩ := hk
    rfl
  | queryExemplars =>
    simp only [Call.queryExemplars, bind_eq_ok, pure_eq_ok] at hk
    obtain ⟨_, -, _, -, rfl⟩ := hk
    rfl
  | metricNames | labelNames | labelValues | series =>
    simp only [Call.metricNames, Call.labelNames, Call.labelValues, Call.series, bind_eq_ok,
      pure_eq_ok] at hk
    obtain ⟨_, -, rfl⟩ := hk
    rfl
  | metricMetadata | targetsMetadata | tsdbStats =>
    simp only [Call.metricMetadata, Call.targetsMetadata, Call.tsdbStats, Call.lookUp, bind_eq_ok,
      pure_eq_ok] at hk
    obtain ⟨_, -, rfl⟩ := hk
    rfl
  | targets | alerts | alertmanagers | rules | buildInfo | runtimeInfo | flags | statusConfig =>
    rw [Except.ok.injEq] at hk
    subst hk
    rfl

end Shapes

/-! ### Envelopes that report an error -/

section Envelopes

variable {α : Type} {shape : Json.Decoder α} {ms : List Member} {kind message body : Text}

/-- A legible answer that reports an error is read. -/
theorem read_of_isLegible (hshape : shape.KeepsPace) (hms : members.run body = .ok ms)
    (h : IsErrorAnswer ms kind message) (hlegible : IsLegible shape ms) : ∃ status data warnings,
      status ≠ "success".toList ∧
      Envelope.read shape body = .ok ⟨status, data, some kind, some message, warnings⟩ := by
  obtain ⟨hunique, hdata⟩ := hlegible
  simp only [Envelope.names, List.forall_mem_cons] at hunique
  obtain ⟨hstatus₁, hdata₁, htype₁, herror₁, hwarnings₁, -⟩ := hunique
  have hone := Nat.le_antisymm hstatus₁ (List.length_pos_iff.mpr h.status.1)
  obtain ⟨m, hm⟩ := List.length_eq_one_iff.mp hone
  obtain ⟨status, hstatus, hne⟩ := h.status.2 m (hm ▸ List.mem_singleton_self m)
  obtain ⟨data, hfield'⟩ := exists_fieldAfter.mpr ⟨hdata₁, hdata⟩
  obtain ⟨warnings, hfield''⟩ := exists_fieldAfter.mpr ⟨hwarnings₁, h.warnings⟩
  refine ⟨status, data.join, warnings.getD [], hne, (Envelope.read_eq_ok hshape hms).mpr ?_⟩
  exact ⟨status, data, some (some kind), some (some message), warnings,
    fieldAfter_eq_some.mpr ⟨m, hm, hstatus⟩, hfield',
    fieldAfter_of_unique h.errorType.1 htype₁ fun m hm => read_optional_text (h.errorType.2 m hm),
    fieldAfter_of_unique h.error.1 herror₁ fun m hm => read_optional_text (h.error.2 m hm),
    hfield'', rfl⟩

/-- An answer that is read is legible. -/
theorem isLegible_of_read (hshape : shape.KeepsPace) (hms : members.run body = .ok ms)
    {e : Envelope α} (he : Envelope.read shape body = .ok e) : IsLegible shape ms := by
  obtain ⟨_, _, _, _, _, hstatus, hdata, htype, herror, hwarnings, -⟩ :=
    (Envelope.read_eq_ok hshape hms).mp he
  refine ⟨?_, (exists_fieldAfter.mp ⟨_, hdata⟩).2⟩
  simp only [Envelope.names, List.forall_mem_cons]
  exact ⟨(exists_fieldAfter.mp ⟨_, hstatus⟩).1, (exists_fieldAfter.mp ⟨_, hdata⟩).1,
    (exists_fieldAfter.mp ⟨_, htype⟩).1, (exists_fieldAfter.mp ⟨_, herror⟩).1,
    (exists_fieldAfter.mp ⟨_, hwarnings⟩).1, by simp⟩

/-- **What an answer that reports an error means.**  It is taken for what it is if it is legible,
and else for no envelope at all. -/
theorem interpret_of_isErrorAnswer (hshape : shape.KeepsPace) (hms : members.run body = .ok ms)
    (h : IsErrorAnswer ms kind message) (status : Nat) :
    (IsLegible shape ms → Envelope.interpret shape status body = .error (.api kind message)) ∧
    (¬ IsLegible shape ms → ∃ e, Envelope.read shape body = .error e ∧
      Envelope.interpret shape status body = .error
        (if 200 ≤ status ∧ status < 300 then .undecodable e
          else .status status (Envelope.excerpt body))) := by
  constructor
  · intro hlegible
    obtain ⟨status', data, warnings, hne, hread⟩ := read_of_isLegible hshape hms h hlegible
    rw [Envelope.interpret, hread]
    exact if_neg hne
  · intro hillegible
    cases hread : Envelope.read shape body with
    | ok e => exact absurd (isLegible_of_read hshape hms hread) hillegible
    | error e =>
      refine ⟨e, rfl, ?_⟩
      rw [Envelope.interpret, hread]
      dsimp only
      split <;> rfl

end Envelopes

/-! ### Calls -/

/-- **When an error that an answer reports is passed on.**  An answer with any status and a body
that is an object, in which the status is a text other than that of success, kind and text of the
error are texts and the warnings, if there are any, a list of texts, makes a call of the API fail.
It fails with that kind and text exactly if no field of the envelope comes twice and the data, if
there are any, are as the call expects them; else the body counts as no envelope at all, and kind
and text are lost. -/
theorem error_answer_iff {α : Type} {call : Except CallError (Call α)} {shape : Json.Decoder α}
    (hcall : HasShape call shape) {c : Client} {server : Backend} {r : Request} {status : Nat}
    {body : Text} (hr : r ∈ c.requests call server)
    (hanswer : server [r] = some (.replied status body))
    {ms : List Member} (hms : members.run body = .ok ms) {kind message : Text}
    (h : IsErrorAnswer ms kind message) :
    let result := ((c.attempt call).run server).result
    (result = some (.error (.api kind message)) ↔ IsLegible shape ms) ∧
      (¬ IsLegible shape ms → ∃ e, Envelope.read shape body = .error e ∧
        result = some (.error (if 200 ≤ status ∧ status < 300 then .undecodable e
          else .status status (Envelope.excerpt body)))) := by
  obtain ⟨k, rfl, hrequest⟩ := Client.mem_requests.mp hr
  have hresult : ((c.attempt (.ok k)).run server).result =
      some (Envelope.interpret shape status body) := by
    rw [Client.attempt, Client.run_perform hrequest hanswer, hcall.shape_eq rfl]
    rfl
  obtain ⟨hlegible, hillegible⟩ := interpret_of_isErrorAnswer hcall.keepsPace hms h status
  intro result
  have hresult' : result = some (Envelope.interpret shape status body) := hresult
  rw [hresult']
  refine ⟨⟨fun heq => ?_, fun hl => congrArg some (hlegible hl)⟩, fun hl => ?_⟩
  · by_contra hl
    obtain ⟨e, -, hinterpret⟩ := hillegible hl
    rw [hinterpret] at heq
    split at heq <;> cases heq
  · obtain ⟨e, hread, hinterpret⟩ := hillegible hl
    exact ⟨e, hread, congrArg some hinterpret⟩

/-- An error that a query meets, with data that are no data of a query. -/
def emptyDataBody : Text :=
  ("\x7b\"status\":\"error\",\"errorType\":\"bad_data\",\"error\":\"boom\","
    ++ "\"data\":\x7b\x7d\x7d").toList

/-- A query whose error is lost, since the answer has data that are empty. -/
theorem error_answer_of_empty_data :
    let server : Backend := fun _ => some (.replied 400 emptyDataBody)
    ∃ (c : Client) (r : Request) (ms : List Member),
      r ∈ c.requests (Call.query "up".toList none {}) server ∧
      members.run emptyDataBody = .ok ms ∧ IsErrorAnswer ms "bad_data".toList "boom".toList ∧
      ((c.attempt (Call.query "up".toList none {})).run server).result =
        some (.error (.status 400 emptyDataBody)) := by
  intro server
  let c : Client := ⟨⟨.https, [], none, ['h'], none, [[]], none, none⟩,
    { url := some "https://h/".toList }, none⟩
  let r : Request := ⟨⟨.https, [], none, ['h'], none, ["api".toList, "v1".toList, "query".toList],
    some "query=up".toList, none⟩, [], Span.ofSeconds 30⟩
  let ms : List Member := (members.run emptyDataBody).toOption.getD []
  have hr : r ∈ c.requests (Call.query "up".toList none {}) server := by
    decide +kernel
  have hms : members.run emptyDataBody = .ok ms := by
    decide +kernel
  have hstatus : ∀ m ∈ Member.named "status" ms, m.read text = .ok "error".toList := by
    decide +kernel
  have hanswer : IsErrorAnswer ms "bad_data".toList "boom".toList := by
    refine ⟨⟨by decide +kernel, fun m hm => ⟨_, hstatus m hm, by decide⟩⟩, by decide +kernel,
      by decide +kernel, ?_⟩
    have hnone : Member.named "warnings" ms = [] := by
      decide +kernel
    simp [hnone]
  have hillegible : ¬ IsLegible Call.queryData ms := by
    have hne : Member.named "data" ms ≠ [] := by
      decide +kernel
    have hdata : ∀ m ∈ Member.named "data" ms,
        (m.read (optional Call.queryData)).toOption.isSome = false := by
      decide +kernel
    intro hlegible
    obtain ⟨m, hm⟩ := List.exists_mem_of_ne_nil _ hne
    obtain ⟨data, hread⟩ := hlegible.2 m hm
    have hnone := hdata m hm
    rw [hread] at hnone
    cases hnone
  have hexcerpt : Envelope.excerpt emptyDataBody = emptyDataBody := by
    decide +kernel
  obtain ⟨-, hlost⟩ := error_answer_iff (.query "up".toList none {}) hr rfl hms hanswer
  obtain ⟨e, -, hresult⟩ := hlost hillegible
  rw [if_neg (by decide), hexcerpt] at hresult
  exact ⟨c, r, ms, hr, hms, hanswer, hresult⟩

end MetricsBridge
