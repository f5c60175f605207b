import MetricsBridge.Proofs.Server.Queries
import MetricsBridge.Proofs.Server.Required
import MetricsBridge.Proofs.Server.Secrecy
import MetricsBridge.Proofs.Time.Span

/-!
# Checks before sending

A call of a tool is checked step by step: its name, its address, the parameters that have to be
given, and the values that go into the query.  `errorOf_call_of_job` says that a job fails with the
first fault of its slots, and `validation_comes_first` what becomes of a call: whatever the server
does, it stops at the first thing that is wrong before anything is sent, or else sends one request.
-/
namespace MetricsBridge

/-! ## Definitions -/

/-- What is said about a value that makes no sense in the way it is spelled. -/
def Spelling.invalid? : Spelling → Text → Option CallError
  | .verbatim, _ => none
  | .time, value => some (.invalidTime value)
  | .step, value => some (.invalidDuration value)
  | .span, value => some (.invalidDuration value)
  | .limit, value => some (.invalidLimit value)

/-- The error about a value, unless it makes sense. -/
def Spelling.fault? (spelling : Spelling) (value : Text) : Option CallError :=
  if (spelling.write? value).isSome then none else spelling.invalid? value

/-- The error about the value that fills a slot. -/
def Slot.fault? (args : Arguments) : Slot → Option CallError
  | .required _ argument spelling => (args.requireText argument).toOption.bind spelling.fault?
  | .optional _ argument spelling => (args.optionalText argument).bind spelling.fault?
  | .each _ _ => none

/-- The error about the first of the values that fill the slots of a tool which makes no sense. -/
def Tool.fault? (t : Tool) (args : Arguments) : Option CallError :=
  t.slots.findSome? (Slot.fault? args)

/-- Whatever the server does, nothing is sent to it, and the result of the call is an error. -/
def StopsWith (c : Config) (name : Text) (args : Arguments) (e : ToolError) : Prop :=
  ∀ server, FailsWith c name args server e ∧
    (dispatch c name args).run server = ⟨[], some ⟨Redaction.redact e.message, true⟩⟩

/-- Whatever the server does, it is sent one request. -/
def SendsOnce (c : Config) (name : Text) (args : Arguments) (r : Request) : Prop :=
  ∀ server, ((dispatch c name args).run server).exchanges = [⟨r, server [r]⟩]

/-- The token and the tenant of a call can be sent. -/
structure HasLegalHeaders (c : Config) (args : Arguments) : Prop where
  token : c.connection.HasLegalToken
  tenant : ∀ id, c.connection.orgId.or (nonBlank args.orgId) = some id →
    (⟨Header.orgId, id⟩ : Header).isLegal = true

/-- The address of an endpoint as it is asked for; credentials that become a header are left out. -/
def Url.asked (base : Url) (segments : List Text) (pairs : List Form.Pair) : Url :=
  (base.endpoint segments pairs).takeAuthorization.2

/-! ## Errors of computations -/

/-- The error that a computation ends with. -/
def errorOf {ε α : Type} : Except ε α → Option ε
  | .ok _ => none
  | .error e => some e

section Errors

variable {ε α β : Type} {x : Except ε α}

theorem errorOf_eq_none : errorOf x = none ↔ ∃ a, x = .ok a := by
  cases x <;> simp [errorOf]

theorem errorOf_eq_some {e : ε} : errorOf x = some e ↔ x = .error e := by
  cases x <;> simp [errorOf]

@[simp] theorem errorOf_pure (a : α) : errorOf (pure a : Except ε α) = none := rfl

@[simp] theorem errorOf_map (f : α → β) : errorOf (x.map f) = errorOf x := by
  cases x <;> rfl

/-- A computation ends with the error of its first step, or else with that of what follows. -/
theorem errorOf_bind {f : α → Except ε β} {next : Option ε}
    (h : ∀ a, x = .ok a → errorOf (f a) = next) : errorOf (x >>= f) = (errorOf x).or next := by
  cases x with
  | error e => rfl
  | ok a => exact h a rfl

end Errors

/-! ## Errors of checks -/

section Checks

theorem errorOf_checkTime (v : Text) : errorOf (checkTime v) = Spelling.time.fault? v := by
  rw [checkTime, Spelling.fault?, Spelling.write?]
  cases Timestamp.normalize? v <;> rfl

theorem errorOf_checkSpan (v : Text) : errorOf (checkSpan v) = Spelling.span.fault? v := by
  rw [checkSpan, Spelling.fault?, Spelling.write?]
  cases Span.parse? v <;> rfl

theorem errorOf_spanText (v : Text) : errorOf (spanText v) = Spelling.span.fault? v := by
  rw [spanText, errorOf_map, errorOf_checkSpan]

theorem errorOf_checkStep (v : Text) : errorOf (checkStep v) = Spelling.step.fault? v := by
  rw [checkStep, Span.step?, Spelling.fault?, Spelling.write?]
  cases Span.parse? v with
  | none => rfl
  | some span => by_cases hz : span.nanos = 0 <;> simp [hz, errorOf, Spelling.invalid?]

theorem errorOf_limitText (v : Text) : errorOf (limitText v) = Spelling.limit.fault? v := by
  rw [limitText, errorOf_map, checkLimit, Spelling.fault?, Spelling.write?]
  cases Text.toNatBelow? (Nat.pow 2 64) (Text.trim v) <;> rfl

@[simp] theorem fault?_verbatim (v : Text) : Spelling.verbatim.fault? v = none := rfl

@[simp] theorem bind_fault?_verbatim (value : Option Text) :
    value.bind Spelling.verbatim.fault? = none := by
  cases value <;> rfl

/-- The pair of an option fails as its check does. -/
theorem errorOf_optionPair {spelling : Spelling} {check : Text → Except CallError Text}
    (h : ∀ v, errorOf (check v) = spelling.fault? v) (name : String) (value : Option Text) :
    errorOf (optionPair name value check) = value.bind spelling.fault? := by
  cases value with
  | none => rfl
  | some v =>
    rw [optionPair, errorOf_map, h]
    rfl

theorem errorOf_optionPair_verbatim (name : String) (value : Option Text) :
    errorOf (optionPair name value .ok) = none := by
  cases value <;> rfl

/-- There is a time to wait for a query exactly if its timeout makes sense. -/
theorem errorOf_patience (o : QueryOptions) (usual : Span) :
    errorOf (o.patience usual) = o.timeout.bind Spelling.span.fault? := by
  cases ht : o.timeout with
  | none => rw [QueryOptions.patience, ht, errorOf, Option.bind_none]
  | some t =>
    rw [Option.bind_some, ← errorOf_checkSpan]
    cases hs : Span.parse? t with
    | none =>
      rw [patience_of_timeout ht, checkSpan, hs]
      rfl
    | some s =>
      have hcheck : checkSpan t = .ok s := by rw [checkSpan, hs]
      rw [patience_eq_ok ht hs, hcheck, errorOf, errorOf]

end Checks

/-! ## Errors of calls -/

section Calls

variable {args : Arguments}

theorem findSome?_cons_or {α β : Type} (f : α → Option β) (a : α) (l : List α) :
    (a :: l).findSome? f = (f a).or (l.findSome? f) := by
  rw [List.findSome?_cons]
  cases f a <;> rfl

theorem errorOf_queryOptions (args : Arguments) :
    errorOf args.queryOptions.pairs = querySlots.findSome? (Slot.fault? args) := by
  have hbind : errorOf args.queryOptions.pairs = _ := errorOf_bind fun _ _ =>
    errorOf_bind fun _ _ => errorOf_bind fun _ _ => errorOf_bind fun _ _ => errorOf_pure _
  rw [hbind, errorOf_optionPair errorOf_spanText, errorOf_optionPair errorOf_limitText,
    errorOf_optionPair_verbatim, errorOf_optionPair errorOf_spanText]
  simp [querySlots, findSome?_cons_or, Slot.fault?, Arguments.queryOptions]

theorem errorOf_selectorOptions (args : Arguments) :
    errorOf args.selectorOptions.pairs = selectorSlots.findSome? (Slot.fault? args) := by
  have hbind : errorOf args.selectorOptions.pairs = _ := errorOf_bind fun _ _ =>
    errorOf_bind fun _ _ => errorOf_bind fun _ _ => errorOf_pure _
  rw [hbind, errorOf_optionPair errorOf_checkTime, errorOf_optionPair errorOf_checkTime,
    errorOf_optionPair errorOf_limitText]
  simp [selectorSlots, findSome?_cons_or, Slot.fault?, Arguments.selectorOptions]

/-- Options whose pairs are good have a time to wait: the timeout is read twice, and both readings
agree on whether it makes sense. -/
theorem errorOf_patience_of_pairs {o : QueryOptions} {pairs : List Form.Pair}
    (h : o.pairs = .ok pairs) (usual : Span) : errorOf (o.patience usual) = none := by
  simp only [QueryOptions.pairs, bind_eq_ok] at h
  obtain ⟨timeout, htimeout, -⟩ := h
  rw [errorOf_patience, ← errorOf_optionPair errorOf_spanText "timeout", htimeout, errorOf]

theorem errorOf_query (expr : Text) (args : Arguments) :
    errorOf (Call.query expr (args.optionalText "time") args.queryOptions) =
      (.optional "time" "time" .time :: querySlots).findSome? (Slot.fault? args) := by
  have hbind : errorOf (Call.query expr (args.optionalText "time") args.queryOptions) =
      (errorOf (optionPair "time" (args.optionalText "time") checkTime)).or
        ((errorOf args.queryOptions.pairs).or none) :=
    errorOf_bind fun _ _ => errorOf_bind fun _ hpairs =>
      (errorOf_bind fun _ _ => errorOf_pure _).trans <| by
        rw [errorOf_patience_of_pairs hpairs, Option.none_or]
  rw [hbind, errorOf_optionPair errorOf_checkTime, errorOf_queryOptions, findSome?_cons_or,
    Option.or_none, Slot.fault?]

theorem errorOf_queryRange (expr start stop step : Text) (args : Arguments) :
    errorOf (Call.queryRange expr start stop step args.queryOptions) =
      (Spelling.time.fault? start).or ((Spelling.time.fault? stop).or
        ((Spelling.step.fault? step).or (querySlots.findSome? (Slot.fault? args)))) := by
  have hbind : errorOf (Call.queryRange expr start stop step args.queryOptions) =
      (errorOf (checkTime start)).or ((errorOf (checkTime stop)).or
        ((errorOf (checkStep step)).or ((errorOf args.queryOptions.pairs).or none))) :=
    errorOf_bind fun _ _ => errorOf_bind fun _ _ => errorOf_bind fun _ _ =>
      errorOf_bind fun _ hpairs => (errorOf_bind fun _ _ => errorOf_pure _).trans <| by
        rw [errorOf_patience_of_pairs hpairs, Option.none_or]
  rw [hbind, errorOf_checkTime, errorOf_checkTime, errorOf_checkStep, errorOf_queryOptions,
    Option.or_none]

theorem errorOf_queryExemplars (expr start stop : Text) :
    errorOf (Call.queryExemplars expr start stop) =
      (Spelling.time.fault? start).or (Spelling.time.fault? stop) := by
  have hbind : errorOf (Call.queryExemplars expr start stop) = _ :=
    errorOf_bind fun _ _ => errorOf_bind fun _ _ => errorOf_pure _
  rw [hbind, errorOf_checkTime, errorOf_checkTime, Option.or_none]

theorem errorOf_labelValues (label : Text) (o : SelectorOptions) :
    errorOf (Call.labelValues label o) = errorOf o.pairs := by
  have hbind : errorOf (Call.labelValues label o) = _ := errorOf_bind fun _ _ => errorOf_pure _
  rw [hbind, Option.or_none]

theorem errorOf_labelNames (o : SelectorOptions) :
    errorOf (Call.labelNames o) = errorOf o.pairs := by
  have hbind : errorOf (Call.labelNames o) = _ := errorOf_bind fun _ _ => errorOf_pure _
  rw [hbind, Option.or_none]

theorem errorOf_series (o : SelectorOptions) : errorOf (Call.series o) = errorOf o.pairs := by
  have hbind : errorOf (Call.series o) = _ := errorOf_bind fun _ _ => errorOf_pure _
  rw [hbind, Option.or_none]

theorem errorOf_lookUp (segments : List String) (named : List (String × Option Text))
    (limit : Option Text) :
    errorOf (Call.lookUp segments named limit) = limit.bind Spelling.limit.fault? := by
  have hbind : errorOf (Call.lookUp segments named limit) = _ :=
    errorOf_bind fun _ _ => errorOf_pure _
  rw [hbind, errorOf_optionPair errorOf_limitText, Option.or_none]

/-- An argument that has to be given, and is, fills its slot. -/
theorem fault?_required {name argument : String} {spelling : Spelling} {value : Text}
    (h : args.requireText argument = .ok value) :
    Slot.fault? args (.required name argument spelling) = spelling.fault? value := by
  rw [Slot.fault?, h]
  rfl

end Calls

/-- **A job fails with the first fault of its slots**, in the order of the pairs. -/
theorem errorOf_call_of_job {args : Arguments} {t : Tool} {j : Job} (hj : t.job args = .ok j) :
    errorOf j.call = t.fault? args := by
  rw [Tool.fault?]
  cases t with
  | executeQuery =>
    obtain ⟨expr, hexpr, rfl⟩ := except_map_eq_ok.mp hj
    refine (errorOf_query expr args).trans ?_
    simp [Tool.slots, findSome?_cons_or, fault?_required hexpr]
  | executeRangeQuery =>
    obtain ⟨expr, hexpr, hj⟩ := except_bind_eq_ok.mp hj
    obtain ⟨start, hstart, hj⟩ := except_bind_eq_ok.mp hj
    obtain ⟨stop, hstop, hj⟩ := except_bind_eq_ok.mp hj
    obtain ⟨step, hstep, rfl⟩ := except_map_eq_ok.mp hj
    refine (errorOf_queryRange expr start stop step args).trans ?_
    simp [Tool.slots, findSome?_cons_or, fault?_required hexpr, fault?_required hstart,
      fault?_required hstop, fault?_required hstep]
  | queryExemplars =>
    obtain ⟨expr, hexpr, hj⟩ := except_bind_eq_ok.mp hj
    obtain ⟨start, hstart, hj⟩ := except_bind_eq_ok.mp hj
    obtain ⟨stop, hstop, rfl⟩ := except_map_eq_ok.mp hj
    refine (errorOf_queryExemplars expr start stop).trans ?_
    simp [Tool.slots, findSome?_cons_or, fault?_required hexpr, fault?_required hstart,
      fault?_required hstop]
  | listMetrics =>
    cases Except.ok.inj hj
    exact (errorOf_labelValues _ _).trans (errorOf_selectorOptions args)
  | getMetricMetadata =>
    obtain ⟨metric, -, rfl⟩ := except_map_eq_ok.mp hj
    refine (errorOf_lookUp _ _ _).trans ?_
    simp [Tool.slots, findSome?_cons_or, Slot.fault?]
  | listLabelNames =>
    cases Except.ok.inj hj
    exact (errorOf_labelNames _).trans (errorOf_selectorOptions args)
  | listLabelValues =>
    obtain ⟨label, -, rfl⟩ := except_map_eq_ok.mp hj
    exact (errorOf_labelValues _ _).trans (errorOf_selectorOptions args)
  | findSeries =>
    obtain ⟨matchers, hmatchers, rfl⟩ := except_map_eq_ok.mp hj
    have hm : args.texts "matches" = matchers := texts_of_requireTexts hmatchers
    subst hm
    exact (errorOf_series _).trans (errorOf_selectorOptions args)
  | getTargetsMetadata =>
    cases Except.ok.inj hj
    refine (errorOf_lookUp _ _ _).trans ?_
    simp [Tool.slots, findSome?_cons_or, Slot.fault?]
  | getTsdbStats =>
    cases Except.ok.inj hj
    refine (errorOf_lookUp _ _ _).trans ?_
    simp [Tool.slots, findSome?_cons_or, Slot.fault?]
  | getAlerts | getAlertmanagers | getRules | getTargets | getBuildInfo | getRuntimeInfo | getFlags
  | getConfig =>
    cases Except.ok.inj hj
    rfl

/-! ## What becomes of a call -/

theorem isLegal_takeAuthorization (u : Url) :
    u.takeAuthorization.1.all Header.isLegal = true := by
  unfold Url.takeAuthorization
  split
  · rfl
  · dsimp only
    split_ifs
    · rfl
    · simp [isLegal_basic]

/-- A request whose headers are legal can be built exactly if its address can be sent. -/
theorem build_of_legal {c : Connection} (agent : Text) (htoken : c.HasLegalToken)
    (htenant : c.orgHeaders.all Header.isLegal = true)
    (hagent : (Header.mk Header.userAgent agent).isLegal = true) (url : Url) (patience : Span) :
    (url.takeAuthorization.2.isSendable = true →
      ∃ r, r.url = url.takeAuthorization.2 ∧ Request.build c (some agent) url patience = .ok r) ∧
    (url.takeAuthorization.2.isSendable = false → Request.build c (some agent) url patience =
      .error (.illegalAddress url.takeAuthorization.2.render)) := by
  have hall : (url.takeAuthorization.1 ++ c.authHeaders ++ c.orgHeaders
      ++ [Header.mk Header.userAgent agent]).all Header.isLegal = true := by
    simp only [List.all_append, isLegal_takeAuthorization, isLegal_authHeaders htoken, htenant,
      List.all_cons, hagent, List.all_nil, Bool.and_self]
  unfold Request.build
  dsimp only [Option.map_some, Option.toList_some]
  rw [hall]
  refine ⟨fun hs => ?_, fun hs => ?_⟩
  · rw [hs]
    exact ⟨_, rfl, rfl⟩
  · rw [hs]
    rfl

section Outcomes

variable {c : Config} {t : Tool} {args : Arguments} {name : Text}

/-! ### Clients -/

/-- The connection of a call that asks an address. -/
def callConnection (c : Config) (args : Arguments) (url : Text) : Connection :=
  { c.connection with url := some url, orgId := c.connection.orgId.or (nonBlank args.orgId) }

theorem orgHeaders_callConnection (h : HasLegalHeaders c args) (url : Text) :
    (callConnection c args url).orgHeaders.all Header.isLegal = true := by
  rw [Connection.orgHeaders, callConnection]
  cases hid : c.connection.orgId.or (nonBlank args.orgId) with
  | none => rfl
  | some id => simp [h.tenant id hid]

theorem callClient_of_no_url (h : effectiveUrl c args = none) :
    callClient c args = .error .missingUrl := by
  rw [effectiveUrl] at h
  rw [callClient, Client.forCall, Connection.resolve, h]
  rfl

theorem callClient_of_bad_url {url : Text} {fault : Url.Fault}
    (h : effectiveUrl c args = some url) (hp : Url.parse url = .error fault) :
    callClient c args = .error (.invalidUrl url fault.message) := by
  rw [effectiveUrl] at h
  simp only [callClient, Client.forCall, Connection.resolve, h, bind, Except.bind, Client.connect,
    hp]

theorem callClient_of_url {url : Text} {base : Url}
    (h : effectiveUrl c args = some url) (hp : Url.parse url = .ok base) :
    callClient c args = .ok ⟨base, callConnection c args url, some Program.agent⟩ := by
  rw [effectiveUrl] at h
  simp only [callClient, Client.forCall, Connection.resolve, h, bind, Except.bind, Client.connect,
    hp, callConnection]

/-! ### Calls that stop -/

theorem stopsWith_of_not_listed (h : ∀ t ∈ c.enabledTools, t.name ≠ name) :
    ∃ e, e.IsRefusal ∧ StopsWith c name args e := by
  by_cases hall : ∀ t ∈ Tool.all, t.name ≠ name
  · exact ⟨.unknownTool name, trivial, run_of_execute_error (execute_of_unknown hall)⟩
  · simp only [not_forall, not_not] at hall
    obtain ⟨t, -, rfl⟩ := hall
    have ht : t ∉ c.enabledTools := fun hm => h t hm rfl
    exact ⟨_, isRefusal_whyHidden ht, run_of_execute_error (execute_of_hidden ht)⟩

variable (ht : t ∈ c.enabledTools) {client : Client} (hc : callClient c args = .ok client) {j : Job}
  (hj : t.job args = .ok j)

include ht hc hj

theorem stopsWith_of_bad_value {e : CallError} (he : j.call = .error e) :
    StopsWith c t.name args (.failed j.action e) := by
  apply run_of_execute_error
  rw [execute_of_job ht hc hj, perform_of_bad_call he]
  rfl

theorem stopsWith_of_bad_request {k : Call j.Data} (hk : j.call = .ok k) {fault : SendFault}
    (hr : client.request k = .error fault) :
    StopsWith c t.name args (.failed j.action (.notSent fault)) := by
  apply run_of_execute_error
  rw [execute_of_job ht hc hj, perform_of_bad_request hk hr]
  rfl

theorem sendsOnce_of_request {k : Call j.Data} (hk : j.call = .ok k) {r : Request}
    (hr : client.request k = .ok r) : SendsOnce c t.name args r := by
  intro server
  rw [dispatch, execute_of_job ht hc hj, perform_of_request hk hr]
  exact congrArg Outcome.exchanges (Plan.run_send_done server r _)

omit ht hc hj

theorem exists_job (h : ∀ p ∈ t.params, p.isRequired = true → p.IsSatisfied args) :
    ∃ j, t.job args = .ok j := by
  cases hj : t.job args with
  | ok j => exact ⟨j, rfl⟩
  | error e =>
    obtain ⟨p, hp, -⟩ := findSome?_fault?_eq_some.mp (job_eq_error_iff.mp hj)
    obtain ⟨q, hq, hreq, hbad⟩ := exists_isFirstMissing.mp ⟨p, hp⟩
    exact absurd (h q hq hreq) hbad

/-- A call whose arguments are good and whose headers are legal asks for an address below its base,
and sends a request for it exactly if the address can be sent. -/
theorem sendsOnce_or_stopsWith_of_legal {url : Text} {base : Url} (ht : t ∈ c.enabledTools)
    (hurl : effectiveUrl c args = some url) (hbase : Url.parse url = .ok base) {j : Job}
    (hj : t.job args = .ok j) {k : Call j.Data} (hk : j.call = .ok k)
    (hlegal : HasLegalHeaders c args) :
    ((base.asked k.segments k.pairs).isSendable = true →
      ∃ r, r.url = base.asked k.segments k.pairs ∧ SendsOnce c t.name args r) ∧
    ((base.asked k.segments k.pairs).isSendable = false → StopsWith c t.name args
      (.failed j.action (.notSent (.illegalAddress (base.asked k.segments k.pairs).render)))) := by
  have hc := callClient_of_url hurl hbase
  have htoken : (callConnection c args url).HasLegalToken := hlegal.token
  have hbuild := build_of_legal Program.agent htoken (orgHeaders_callConnection hlegal url)
    (by decide) (base.endpoint k.segments k.pairs) k.patience
  refine ⟨fun hs => ?_, fun hs => ?_⟩
  · obtain ⟨r, hr, hreq⟩ := hbuild.1 hs
    exact ⟨r, hr, sendsOnce_of_request ht hc hj hk hreq⟩
  · exact stopsWith_of_bad_request ht hc hj hk (hbuild.2 hs)

/-! ### Main statement -/

/-- **Checks come before sending, and nothing is sent twice.**  A call sends at most one request.
It stops before anything is sent if no listed tool has its name, if there is no address or one that
is refused, if a parameter is missing that has to be given, which is then the first such, or if a
value that goes into the query makes no sense, with the error about the first such value in the
order of the pairs.  Otherwise, if its headers are legal, it sends one request for the address that
it asks for, unless this address cannot be sent. -/
theorem validation_comes_first (c : Config) (name : Text) (args : Arguments) :
    (∀ server, (sent c name args server).length ≤ 1) ∧
    ((∀ t ∈ c.enabledTools, t.name ≠ name) → ∃ e, e.IsRefusal ∧ StopsWith c name args e) ∧
    ∀ t ∈ c.enabledTools, t.name = name →
      (effectiveUrl c args = none → StopsWith c name args (.noClient .missingUrl)) ∧
      (∀ url fault, effectiveUrl c args = some url → Url.parse url = .error fault →
        StopsWith c name args (.noClient (.invalidUrl url fault.message))) ∧
      ∀ url base, effectiveUrl c args = some url → Url.parse url = .ok base →
        (∀ p, t.IsFirstMissing args p → StopsWith c name args (.badParam p.missing)) ∧
        ((∀ p ∈ t.params, p.isRequired = true → p.IsSatisfied args) →
          ∃ j, t.job args = .ok j ∧
            (∀ e, t.fault? args = some e → StopsWith c name args (.failed j.action e)) ∧
            (t.fault? args = none → HasLegalHeaders c args → ∃ k, j.call = .ok k ∧
              slotPairs? args t.slots = some k.pairs ∧
              ((base.asked k.segments k.pairs).isSendable = true →
                ∃ r, r.url = base.asked k.segments k.pairs ∧ SendsOnce c name args r) ∧
              ((base.asked k.segments k.pairs).isSendable = false → StopsWith c name args
                (.failed j.action (.notSent
                  (.illegalAddress (base.asked k.segments k.pairs).render)))))) := by
  refine ⟨fun server => (isShort_dispatch c name args).length_requests_le server,
    stopsWith_of_not_listed, ?_⟩
  rintro t ht rfl
  refine ⟨fun hurl => ?_, fun url fault hurl hbad => ?_,
    fun url base hurl hbase => ⟨fun p hp => ?_, ?_⟩⟩
  · exact run_of_execute_error (execute_of_no_client ht (callClient_of_no_url hurl))
  · exact run_of_execute_error (execute_of_no_client ht (callClient_of_bad_url hurl hbad))
  · have hj : t.job args = .error p.missing :=
      job_eq_error_iff.mpr (findSome?_fault?_eq_some.mpr ⟨p, hp, rfl⟩)
    exact run_of_execute_error (execute_of_bad_param ht (callClient_of_url hurl hbase) hj)
  · intro hsat
    obtain ⟨j, hj⟩ := exists_job hsat
    refine ⟨j, hj, fun e he => ?_, fun hnone hlegal => ?_⟩
    · have hcall : j.call = .error e := by rw [← errorOf_eq_some, errorOf_call_of_job hj, he]
      exact stopsWith_of_bad_value ht (callClient_of_url hurl hbase) hj hcall
    · obtain ⟨k, hk⟩ := errorOf_eq_none.mp ((errorOf_call_of_job hj).trans hnone)
      exact ⟨k, hk, slotPairs?_of_job hj hk,
        sendsOnce_or_stopsWith_of_legal ht hurl hbase hj hk hlegal⟩

end Outcomes

/-- The alerts are asked for once, whatever the server does. -/
theorem sendsOnce_of_alerts : ∃ r, r.url.render = "http://h/api/v1/alerts?a=1".toList ∧
    SendsOnce queriedConfig Tool.getAlerts.name [] r := by
  have hbase : Url.parse "http://h/?a=1".toList =
      .ok ⟨.http, [], none, ['h'], none, [[]], some "a=1".toList, none⟩ := by decide +kernel
  have hsat : ∀ p ∈ Tool.getAlerts.params, p.isRequired = true → p.IsSatisfied [] := by
    have hnone : ∀ p ∈ Tool.getAlerts.params, p.isRequired ≠ true := by decide
    exact fun p hp hreq => absurd hreq (hnone p hp)
  have hlegal : HasLegalHeaders queriedConfig [] := by
    constructor
    · rintro token ⟨⟩
    · rintro id ⟨⟩
  have hcall := (validation_comes_first queriedConfig Tool.getAlerts.name []).2.2
    Tool.getAlerts (by decide) rfl
  obtain ⟨j, hj, -, hsent⟩ := (hcall.2.2 _ _ rfl hbase).2 hsat
  cases hj
  obtain ⟨k, hk, -, hsend, -⟩ := hsent rfl hlegal
  cases hk
  obtain ⟨r, hr, honce⟩ := hsend (by decide +kernel)
  exact ⟨r, by rw [hr]; decide +kernel, honce⟩

/-- Of the start and the step, which both make no sense, the error is about the start. -/
example : Tool.executeRangeQuery.fault? [("end".toList, .text "2".toList),
    ("query".toList, .text "up".toList), ("start".toList, .text "soon".toList),
    ("step".toList, .text "0s".toList)] = some (.invalidTime "soon".toList) := by
  decide +kernel

/-! ## Addresses that are too long -/

section Length

theorem length_le_byteLength (t : Text) : t.length ≤ Text.byteLength t := by
  unfold Text.byteLength
  induction t with
  | nil => exact Nat.zero_le _
  | cons c t ih =>
    have hc := c.utf8Size_pos
    rw [List.map_cons, List.foldr_cons, List.length_cons]
    omega

theorem encodeChar_ne_nil (c : Char) : Form.encodeChar c ≠ [] := by
  unfold Form.encodeChar Percent.encodeChar
  split_ifs
  · simp
  · simp
  · obtain ⟨b, rest, hbytes⟩ := List.exists_cons_of_ne_nil (String.utf8EncodeChar_ne_nil (c := c))
    have hutf8 : Utf8.encodeChar c = b :: rest := hbytes
    rw [hutf8, List.flatMap_cons, Percent.encodeByte]
    simp

theorem length_le_encode (t : Text) : t.length ≤ (Form.encode t).length := by
  induction t with
  | nil => exact Nat.zero_le _
  | cons c t ih =>
    have hpos := List.length_pos_iff.mpr (encodeChar_ne_nil c)
    have hcons : Form.encode (c :: t) = Form.encodeChar c ++ Form.encode t := List.flatMap_cons
    rw [hcons, List.length_append, List.length_cons]
    omega

/-- A value takes its room in a query. -/
theorem length_le_addPairs (query : Option Text) (name value : Text) :
    ∃ q, Url.addPairs query [(name, value)] = some q ∧ value.length ≤ q.length := by
  have hvalue := length_le_encode value
  have hnew : Form.serialize [(name, value)] = Form.encode name ++ '=' :: Form.encode value := by
    simp [Form.serialize, Text.joinWith, Form.encodePair]
  unfold Url.addPairs
  rw [hnew]
  by_cases hq : query.getD [] = []
  · refine ⟨Form.encode name ++ '=' :: Form.encode value, by simp [hq], ?_⟩
    simp only [List.length_append, List.length_cons]
    omega
  · refine ⟨query.getD [] ++ '&' :: (Form.encode name ++ '=' :: Form.encode value),
      by simp [hq], ?_⟩
    simp only [List.length_append, List.length_cons]
    omega

/-- An address with a value in its query that is longer than any address cannot be sent. -/
theorem not_isSendable_of_long (base : Url) (segments : List Text) {name value : Text}
    (h : Url.maxBytes < value.length) :
    (base.asked segments [(name, value)]).isSendable = false := by
  obtain ⟨q, hq, hlen⟩ := length_le_addPairs base.query name value
  have hquery : (base.asked segments [(name, value)]).query = some q :=
    (Url.takeAuthorization_query _).trans hq
  have hrender : q.length ≤ (base.asked segments [(name, value)]).render.length := by
    rw [Url.render, hquery]
    simp only [List.length_append, List.length_cons]
    omega
  have hbytes := length_le_byteLength (base.asked segments [(name, value)]).render
  have hlong : ¬ Text.byteLength (base.asked segments [(name, value)]).render ≤ Url.maxBytes := by
    omega
  rw [Url.isSendable, decide_eq_false hlong, Bool.and_false]

end Length

/-- Arguments with an expression that is longer than any address. -/
def longArguments : Arguments :=
  [("query".toList, .text (List.replicate 65535 'a'))]

theorem fault?_longArguments : Tool.executeQuery.fault? longArguments = none := rfl

theorem slotPairs?_longArguments : slotPairs? longArguments Tool.executeQuery.slots =
    some [("query".toList, List.replicate 65535 'a')] := rfl

theorem isSatisfied_longArguments :
    ∀ p ∈ Tool.executeQuery.params, p.isRequired = true → p.IsSatisfied longArguments := by
  intro p hp hreq
  have hq : p ∈ Tool.executeQuery.requiredParams := List.mem_filter.mpr ⟨hp, hreq⟩
  have hone : Tool.executeQuery.requiredParams =
      [Param.required "query" "PromQL query string"] := rfl
  rw [hone, List.mem_singleton] at hq
  subst hq
  refine ⟨List.replicate 65535 'a', rfl, List.ne_nil_of_length_pos ?_⟩
  rw [List.length_replicate]
  decide

/-- Nothing is wrong with the arguments and the headers of a call, and nothing is sent for it: the
address that it asks for is too long. -/
theorem nothing_sent_of_long_expression :
    Tool.executeQuery ∈ queriedConfig.enabledTools ∧
    (∃ url base, effectiveUrl queriedConfig longArguments = some url ∧ Url.parse url = .ok base) ∧
    (∀ p ∈ Tool.executeQuery.params, p.isRequired = true → p.IsSatisfied longArguments) ∧
    Tool.executeQuery.fault? longArguments = none ∧ HasLegalHeaders queriedConfig longArguments ∧
    sent queriedConfig Tool.executeQuery.name longArguments Backend.offline = [] := by
  have ht : Tool.executeQuery ∈ queriedConfig.enabledTools := by decide
  have hurl : effectiveUrl queriedConfig longArguments = some "http://h/?a=1".toList := rfl
  have hbase : Url.parse "http://h/?a=1".toList =
      .ok ⟨.http, [], none, ['h'], none, [[]], some "a=1".toList, none⟩ := by decide +kernel
  have hlegal : HasLegalHeaders queriedConfig longArguments := by
    constructor
    · rintro token ⟨⟩
    · rintro id ⟨⟩
  obtain ⟨j, hj⟩ := exists_job isSatisfied_longArguments
  obtain ⟨k, hk⟩ := errorOf_eq_none.mp ((errorOf_call_of_job hj).trans fault?_longArguments)
  have hpairs : k.pairs = [("query".toList, List.replicate 65535 'a')] :=
    Option.some.inj ((slotPairs?_of_job hj hk).symm.trans slotPairs?_longArguments)
  refine ⟨ht, ⟨_, _, hurl, hbase⟩, isSatisfied_longArguments, fault?_longArguments, hlegal, ?_⟩
  have hstop := (sendsOnce_or_stopsWith_of_legal ht hurl hbase hj hk hlegal).2 <| by
    rw [hpairs]
    apply not_isSendable_of_long
    rw [List.length_replicate, Url.maxBytes]
    decide
  rw [sent, (hstop Backend.offline).2]
  rfl

end MetricsBridge
