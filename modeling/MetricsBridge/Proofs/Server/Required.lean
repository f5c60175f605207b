import MetricsBridge.Proofs.Server.Offering

/-!
# Parameters that have to be given

The catalogue marks the parameters of a tool that have to be given; the job of the tool asks for its
arguments one after the other.  The two are written apart, and `param_error_iff` says that they
agree: a call ends with an error about a parameter exactly if the arguments do not satisfy one that
is marked, and the error is about the first of these.
-/
namespace MetricsBridge

/-! ## Marked parameters -/

namespace Param

/-- What arguments have to hold for a parameter: a text that is not empty, or a list with a text in
it. -/
def IsSatisfied (p : Param) (args : Arguments) : Prop :=
  match p.kind with
  | .text => ∃ t, args.get? p.name = some (.text t) ∧ t ≠ []
  | .texts => ∃ items t, args.get? p.name = some (.array items) ∧ Json.text t ∈ items

/-- The error about a parameter that is not satisfied. -/
def missing (p : Param) : ParamError :=
  match p.kind with
  | .text => .missingText p.name
  | .texts => .missingTexts p.name

/-- The arguments satisfy a parameter. -/
def isSatisfied (args : Arguments) (p : Param) : Bool :=
  match p.kind, args.get? p.name with
  | .text, some (.text t) => t != []
  | .texts, some (.array items) => items.filterMap Json.text? != []
  | _, _ => false

/-- The error that a parameter causes if it has to be given. -/
def fault? (args : Arguments) (p : Param) : Option ParamError :=
  if p.isSatisfied args then none else some p.missing

end Param

namespace Tool

/-- The parameters of a tool that have to be given, in the order of its parameters. -/
def requiredParams (t : Tool) : List Param :=
  t.params.filter Param.isRequired

/-- The first of the parameters that have to be given which the arguments do not satisfy. -/
def IsFirstMissing (t : Tool) (args : Arguments) (p : Param) : Prop :=
  ∃ before after, t.requiredParams = before ++ p :: after ∧ ¬ p.IsSatisfied args ∧
    ∀ q ∈ before, q.IsSatisfied args

end Tool

section Marks

variable {args : Arguments} {e : ParamError} {p : Param} {t : Tool}

theorem mem_texts_iff {items : List Json} {s : Text} :
    s ∈ items.filterMap Json.text? ↔ Json.text s ∈ items := by
  rw [List.mem_filterMap]
  constructor
  · rintro ⟨j, hj, hs⟩
    cases j with
    | text s' =>
      cases hs
      exact hj
    | _ => cases hs
  · exact fun h => ⟨_, h, rfl⟩

theorem isSatisfied_iff : p.isSatisfied args = true ↔ p.IsSatisfied args := by
  unfold Param.isSatisfied Param.IsSatisfied
  cases p.kind with
  | text =>
    cases args.get? p.name with
    | none => simp
    | some j => cases j <;> simp
  | texts =>
    cases args.get? p.name with
    | none => simp
    | some j =>
      cases j with
      | array items =>
        simp only [Option.some.injEq, Json.array.injEq, exists_eq_left', bne_iff_ne, ne_eq,
          List.eq_nil_iff_forall_not_mem, mem_texts_iff, not_forall, not_not, exists_and_left]
      | _ => simp

theorem Param.fault?_eq_none : p.fault? args = none ↔ p.IsSatisfied args := by
  rw [Param.fault?, ← isSatisfied_iff]
  split_ifs with h <;> simp [h]

theorem Param.fault?_eq_some :
    p.fault? args = some e ↔ ¬ p.IsSatisfied args ∧ p.missing = e := by
  rw [Param.fault?, ← isSatisfied_iff]
  split_ifs with h <;> simp [h]

/-- The first fault is that of the first parameter that is not satisfied. -/
theorem findSome?_fault?_eq_some : t.requiredParams.findSome? (Param.fault? args) = some e ↔
    ∃ p, t.IsFirstMissing args p ∧ e = p.missing := by
  simp only [List.findSome?_eq_some_iff, Param.fault?_eq_some, Param.fault?_eq_none,
    Tool.IsFirstMissing]
  constructor
  · rintro ⟨before, p, after, hparams, ⟨hp, rfl⟩, hbefore⟩
    exact ⟨p, ⟨before, after, hparams, hp, hbefore⟩, rfl⟩
  · rintro ⟨p, ⟨before, after, hparams, hp, hbefore⟩, rfl⟩
    exact ⟨before, p, after, hparams, ⟨hp, rfl⟩, hbefore⟩

theorem exists_isFirstMissing : (∃ p, t.IsFirstMissing args p) ↔
    ∃ p ∈ t.params, p.isRequired = true ∧ ¬ p.IsSatisfied args := by
  constructor
  · rintro ⟨p, before, after, hparams, hp, -⟩
    have hm : p ∈ t.requiredParams := by simp [hparams]
    obtain ⟨hmem, hreq⟩ := List.mem_filter.mp hm
    exact ⟨p, hmem, hreq, hp⟩
  · rintro ⟨p, hmem, hreq, hp⟩
    have hsome : (t.requiredParams.findSome? (Param.fault? args)).isSome := by
      rw [List.findSome?_isSome_iff]
      refine ⟨p, List.mem_filter.mpr ⟨hmem, hreq⟩, ?_⟩
      rw [Param.fault?_eq_some.mpr ⟨hp, rfl⟩]
      rfl
    obtain ⟨e, he⟩ := Option.isSome_iff_exists.mp hsome
    obtain ⟨q, hq, -⟩ := findSome?_fault?_eq_some.mp he
    exact ⟨q, hq⟩

end Marks

/-! ## Asking for arguments -/

/-- A computation that asks for a parameter: it fails, with the error about the parameter, exactly
if the arguments do not satisfy it. -/
def Param.IsAskedBy {α : Type*} (args : Arguments) (p : Param) (x : Except ParamError α) : Prop :=
  (∃ a, x = .ok a ∧ p.IsSatisfied args) ∨ (x = .error p.missing ∧ ¬ p.IsSatisfied args)

section Asking

variable {args : Arguments} {α β : Type*} {e : ParamError} {p : Param} {ps : List Param}

theorem requireText_isAsked (args : Arguments) (name description : String) :
    (Param.required name description).IsAskedBy args (args.requireText name) := by
  unfold Arguments.requireText
  split
  · next c rest h => exact .inl ⟨c :: rest, rfl, c :: rest, h, by simp⟩
  · next h =>
    refine .inr ⟨rfl, ?_⟩
    rintro ⟨t, ht, hne⟩
    obtain ⟨c, rest, rfl⟩ := List.exists_cons_of_ne_nil hne
    exact h c rest ht

theorem requireTexts_isAsked (args : Arguments) (name description : String) :
    (Param.texts name description true).IsAskedBy args (args.requireTexts name) := by
  have htexts : (Param.texts name description true).IsSatisfied args ↔ args.texts name ≠ [] := by
    rw [← isSatisfied_iff, Param.isSatisfied, Arguments.texts]
    cases h : args.get? name.toList with
    | none => simp [Param.texts, h]
    | some j => cases j <;> simp [Param.texts, h]
  unfold Arguments.requireTexts
  split
  · next h => exact .inr ⟨rfl, by rw [htexts]; exact not_not_intro h⟩
  · next t rest h => exact .inl ⟨_, rfl, by rw [htexts, h]; simp⟩

/-- A computation that first asks for a parameter fails as the parameter does, or else as what
follows does. -/
theorem Param.IsAskedBy.bind_eq_error {x : Except ParamError α} (hx : p.IsAskedBy args x)
    {f : α → Except ParamError β}
    (hf : ∀ a, f a = .error e ↔ ps.findSome? (Param.fault? args) = some e) :
    x.bind f = .error e ↔ (p :: ps).findSome? (Param.fault? args) = some e := by
  rw [List.findSome?_cons]
  rcases hx with ⟨a, rfl, hs⟩ | ⟨rfl, hs⟩
  · rw [Param.fault?_eq_none.mpr hs]
    exact hf a
  · rw [Param.fault?_eq_some.mpr ⟨hs, rfl⟩]
    simp [Except.bind]

/-- A computation that asks for one parameter alone. -/
theorem Param.IsAskedBy.map_eq_error {x : Except ParamError α} (hx : p.IsAskedBy args x)
    {f : α → β} : x.map f = .error e ↔ [p].findSome? (Param.fault? args) = some e := by
  have hbind : x.map f = x.bind fun a => .ok (f a) := by cases x <;> rfl
  rw [hbind]
  exact hx.bind_eq_error fun a => by simp

end Asking

/-- **A tool asks for what its listing marks**, in the order of the listing. -/
theorem job_eq_error_iff {t : Tool} {args : Arguments} {e : ParamError} :
    t.job args = .error e ↔ t.requiredParams.findSome? (Param.fault? args) = some e := by
  cases t with
  | executeQuery => exact (requireText_isAsked args "query" _).map_eq_error
  | executeRangeQuery =>
    refine (requireText_isAsked args "query" _).bind_eq_error fun _ => ?_
    refine (requireText_isAsked args "start" _).bind_eq_error fun _ => ?_
    refine (requireText_isAsked args "end" _).bind_eq_error fun _ => ?_
    exact (requireText_isAsked args "step" _).map_eq_error
  | queryExemplars =>
    refine (requireText_isAsked args "query" _).bind_eq_error fun _ => ?_
    refine (requireText_isAsked args "start" _).bind_eq_error fun _ => ?_
    exact (requireText_isAsked args "end" _).map_eq_error
  | getMetricMetadata => exact (requireText_isAsked args "metric" _).map_eq_error
  | listLabelValues => exact (requireText_isAsked args "label" _).map_eq_error
  | findSeries => exact (requireTexts_isAsked args "matches" _).map_eq_error
  | listMetrics | listLabelNames | getTargetsMetadata | getAlerts | getAlertmanagers | getRules
  | getTargets | getBuildInfo | getRuntimeInfo | getFlags | getConfig | getTsdbStats =>
    constructor <;> intro h <;> cases h

/-! ## Calls of tools that are listed -/

section Calls

variable {c : Config} {t : Tool} {args : Arguments}

/-- The client of a tool call, or why there is none. -/
def callClient (c : Config) (args : Arguments) : Except CallError Client :=
  Client.forCall (some Program.agent) c.connection args.url args.orgId

theorem execute_of_no_client (ht : t ∈ c.enabledTools) {e : CallError}
    (hc : callClient c args = .error e) : execute c t.name args = .done (.error (.noClient e)) := by
  have hon : c.offersTool t = true := offersTool_iff.mpr (mem_enabledTools.mp ht)
  rw [callClient] at hc
  simp [execute, find?_name, hon, hc]

theorem execute_of_client (ht : t ∈ c.enabledTools) {client : Client}
    (hc : callClient c args = .ok client) : execute c t.name args =
      (t.perform client args).map fun r => r.map fun x => Render.limit x args.isUnlimited := by
  have hon : c.offersTool t = true := offersTool_iff.mpr (mem_enabledTools.mp ht)
  rw [callClient] at hc
  simp [execute, find?_name, hon, hc]

theorem execute_of_bad_param (ht : t ∈ c.enabledTools) {client : Client}
    (hc : callClient c args = .ok client) {e : ParamError} (hj : t.job args = .error e) :
    execute c t.name args = .done (.error (.badParam e)) := by
  rw [execute_of_client ht hc, Tool.perform, hj]
  rfl

theorem execute_of_job (ht : t ∈ c.enabledTools) {client : Client}
    (hc : callClient c args = .ok client) {j : Job} (hj : t.job args = .ok j) :
    execute c t.name args =
      (j.perform client).map fun r => r.map fun x => Render.limit x args.isUnlimited := by
  rw [execute_of_client ht hc, Tool.perform, hj]

/-- A call that comes to nothing at once sends nothing, and its result is the wording of the
error. -/
theorem run_of_execute_error {name : Text} {e : ToolError}
    (h : execute c name args = .done (.error e)) (server : Backend) :
    FailsWith c name args server e ∧ (dispatch c name args).run server =
      ⟨[], some ⟨Redaction.redact e.message, true⟩⟩ := by
  rw [FailsWith, dispatch, h]
  exact ⟨rfl, rfl⟩

/-- A call with a job never ends with an error about a parameter. -/
theorem not_failsWith_badParam (ht : t ∈ c.enabledTools) {client : Client}
    (hc : callClient c args = .ok client) {j : Job} (hj : t.job args = .ok j) (server : Backend)
    (e : ParamError) : ¬ FailsWith c t.name args server (.badParam e) := by
  intro h
  rw [FailsWith, execute_of_job ht hc hj, Job.perform, Plan.result_run_map, Plan.result_run_map,
    Option.map_map, Option.map_eq_some_iff] at h
  obtain ⟨reply, -, h⟩ := h
  cases reply <;> cases h

/-- **An error about a parameter** is that of the job. -/
theorem failsWith_badParam (ht : t ∈ c.enabledTools) {client : Client}
    (hc : callClient c args = .ok client) (server : Backend) (e : ParamError) :
    FailsWith c t.name args server (.badParam e) ↔ t.job args = .error e := by
  cases hj : t.job args with
  | error e' =>
    rw [FailsWith, execute_of_bad_param ht hc hj]
    simp [Plan.run, Plan.runAfter, eq_comm]
  | ok j => exact iff_of_false (not_failsWith_badParam ht hc hj server e) (by simp)

/-- Nothing in the wording of an error about a parameter looks like a secret. -/
theorem redact_missing {p : Param} (hp : p ∈ t.requiredParams) :
    Redaction.redact (ToolError.badParam p.missing).message =
      (ToolError.badParam p.missing).message := by
  have hall : ∀ t ∈ Tool.all, ∀ p ∈ t.requiredParams,
      Redaction.redact (ToolError.badParam p.missing).message =
        (ToolError.badParam p.missing).message := by
    decide +kernel
  exact hall t t.mem_all p hp

/-- **What is marked and what is asked for agree.**  Let a tool be listed, and let there be a client
for a call.  The call ends with an error about a parameter exactly if the arguments do not satisfy
one that is marked; it is about the first of these in the order of the listing, and says that it has
to be a text or a list of texts; and nothing is sent. -/
theorem param_error_iff (ht : t ∈ c.enabledTools) {client : Client}
    (hc : Client.forCall (some Program.agent) c.connection args.url args.orgId = .ok client)
    (server : Backend) :
    ((∃ e, FailsWith c t.name args server (.badParam e)) ↔
      ∃ p ∈ t.params, p.isRequired = true ∧ ¬ p.IsSatisfied args) ∧
    (∀ e, FailsWith c t.name args server (.badParam e) ↔
      ∃ p, t.IsFirstMissing args p ∧ e = p.missing) ∧
    ∀ p, t.IsFirstMissing args p → (dispatch c t.name args).run server =
      ⟨[], some ⟨"Error: ".toList ++ p.missing.message, true⟩⟩ := by
  have herror : ∀ e, FailsWith c t.name args server (.badParam e) ↔
      ∃ p, t.IsFirstMissing args p ∧ e = p.missing := fun e => by
    rw [failsWith_badParam ht hc, job_eq_error_iff, findSome?_fault?_eq_some]
  refine ⟨?_, herror, fun p hp => ?_⟩
  · rw [← exists_isFirstMissing]
    constructor
    · rintro ⟨e, he⟩
      obtain ⟨p, hp, -⟩ := (herror e).mp he
      exact ⟨p, hp⟩
    · rintro ⟨p, hp⟩
      exact ⟨p.missing, (herror _).mpr ⟨p, hp, rfl⟩⟩
  · have hj : t.job args = .error p.missing :=
      job_eq_error_iff.mpr (findSome?_fault?_eq_some.mpr ⟨p, hp, rfl⟩)
    obtain ⟨before, after, hparams, -, -⟩ := hp
    have hm : p ∈ t.requiredParams := by simp [hparams]
    rw [(run_of_execute_error (execute_of_bad_param ht hc hj) server).2, redact_missing hm]
    rfl

end Calls

/-- Arguments of a range query whose start is a list and whose step is empty. -/
def startlessArguments : Arguments :=
  [("end".toList, .text "1".toList), ("query".toList, .text "up".toList),
   ("start".toList, .array [.text "0".toList]), ("step".toList, .text [])]

/-- Of the two parameters that are not satisfied the error is about the first. -/
theorem param_error_of_startless :
    Tool.executeRangeQuery.IsFirstMissing startlessArguments
      (Param.required "start" "Start time as RFC3339 or Unix timestamp") ∧
    (dispatch { connection := { url := some "http://h".toList } } Tool.executeRangeQuery.name
        startlessArguments).run Backend.offline =
      ⟨[], some ⟨"Error: start parameter is required and must be a string".toList, true⟩⟩ := by
  have hp : Tool.executeRangeQuery.IsFirstMissing startlessArguments
      (Param.required "start" "Start time as RFC3339 or Unix timestamp") := by
    refine ⟨[Param.required "query" "PromQL query string"], _, rfl, ?_, ?_⟩
    · rw [← isSatisfied_iff]
      decide
    · intro q hq
      rw [List.mem_singleton.mp hq, ← isSatisfied_iff]
      decide
  have hc : Client.forCall (some Program.agent) { url := some "http://h".toList }
      startlessArguments.url startlessArguments.orgId =
        .ok ⟨⟨.http, [], none, ['h'], none, [[]], none, none⟩, { url := some "http://h".toList },
          some Program.agent⟩ := by
    decide +kernel
  exact ⟨hp, (param_error_iff (by decide) hc Backend.offline).2.2 _ hp⟩

end MetricsBridge
