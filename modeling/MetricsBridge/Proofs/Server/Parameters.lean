import MetricsBridge.Proofs.Server.Queries

/-!
# Parameters that matter

A tool reads its arguments by name.  Arguments that agree on the declared parameters of a tool make
the same job, and so the same requests and results, whatever else they hold.  The listing of metrics
alone reads an argument that it does not declare, its limit: `dispatch_eq_of_agreeOn` says that this
argument is the only other one that matters, and that it does matter.
-/
namespace MetricsBridge

/-- Two tables of arguments that have the same values for some names. -/
def AgreeOn (names : List Text) (a b : Arguments) : Prop :=
  ∀ n ∈ names, a.get? n = b.get? n

/-- Two tables of arguments that have the same values for all but some names. -/
def AgreeExcept (names : List Text) (a b : Arguments) : Prop :=
  ∀ n, n ∉ names → a.get? n = b.get? n

/-- The names of the declared parameters of a tool. -/
def Tool.paramNames (t : Tool) : List Text :=
  t.params.map Param.name

/-- The names of the declared parameters that not every tool has. -/
def Tool.ownNames (t : Tool) : List Text :=
  t.ownParams.map Param.name

/-- The parameter is a text that may be left out. -/
def Param.isLoose (p : Param) : Bool :=
  p.kind == .text && !p.isRequired

/-- Two tables of arguments that are the same to some parameters: a text that may be left out counts
as the same text in both, and every other parameter has the same value. -/
structure ReadAlike (params : List Param) (a b : Arguments) : Prop where
  loose : ∀ p ∈ params, p.isLoose = true →
    (a.get? p.name).bind Arguments.looseText? = (b.get? p.name).bind Arguments.looseText?
  strict : ∀ p ∈ params, p.isLoose = false → a.get? p.name = b.get? p.name

/-- The most entries that a tool lists unless everything is asked for, and what they are called. -/
def Tool.cap? : Tool → Option (Nat × Text)
  | .listMetrics => some (Job.metricCap, "metrics".toList)
  | .listLabelValues => some (Job.labelValueCap, "values".toList)
  | .findSeries => some (Job.seriesCap, "series".toList)
  | _ => none

/-- The pair of the limit of a listing, or the error that it causes. -/
def limitPair (args : Arguments) : Except CallError (List Form.Pair) :=
  optionPair "limit" (args.optionalText "limit") limitText

/-! ## Reading arguments -/

section Reading

variable {a b : Arguments} {name : String}

theorem requireText_congr (h : a.get? name.toList = b.get? name.toList) :
    a.requireText name = b.requireText name := by
  rw [Arguments.requireText, Arguments.requireText, h]

theorem optionalText_congr (h : a.get? name.toList = b.get? name.toList) :
    a.optionalText name = b.optionalText name := by
  rw [Arguments.optionalText, Arguments.optionalText, h]

theorem texts_congr (h : a.get? name.toList = b.get? name.toList) :
    a.texts name = b.texts name := by
  rw [Arguments.texts, Arguments.texts, h]

theorem requireTexts_congr (h : a.get? name.toList = b.get? name.toList) :
    a.requireTexts name = b.requireTexts name := by
  rw [Arguments.requireTexts, Arguments.requireTexts, texts_congr h]

theorem isUnlimited_congr (h : a.get? "unlimited".toList = b.get? "unlimited".toList) :
    a.isUnlimited = b.isUnlimited := by
  rw [Arguments.isUnlimited, Arguments.isUnlimited, h]

theorem queryOptions_congr (htimeout : a.optionalText "timeout" = b.optionalText "timeout")
    (hlimit : a.optionalText "limit" = b.optionalText "limit")
    (hstats : a.optionalText "stats" = b.optionalText "stats")
    (hlookback : a.optionalText "lookback_delta" = b.optionalText "lookback_delta") :
    a.queryOptions = b.queryOptions := by
  rw [Arguments.queryOptions, Arguments.queryOptions, htimeout, hlimit, hstats, hlookback]

/-- The pairs of a listing depend on its limit only through the pair of the limit. -/
theorem selectorOptions_pairs_congr
    (hstart : a.optionalText "start_time" = b.optionalText "start_time")
    (hend : a.optionalText "end_time" = b.optionalText "end_time")
    (hmatches : a.get? "matches".toList = b.get? "matches".toList)
    (hlimit : limitPair a = limitPair b) : a.selectorOptions.pairs = b.selectorOptions.pairs := by
  unfold limitPair at hlimit
  simp only [SelectorOptions.pairs, Arguments.selectorOptions, hstart, hend, texts_congr hmatches,
    hlimit]

theorem limitPair_of_optionalText (h : a.optionalText "limit" = b.optionalText "limit") :
    limitPair a = limitPair b := by
  rw [limitPair, limitPair, h]

theorem limitPair_congr (h : a.get? "limit".toList = b.get? "limit".toList) :
    limitPair a = limitPair b :=
  limitPair_of_optionalText (optionalText_congr h)

end Reading

section ReadAlike

variable {params : List Param} {a b : Arguments}

theorem ReadAlike.optionalText (h : ReadAlike params a b) (name : String)
    (hm : ∃ p ∈ params, p.name = name.toList ∧ p.isLoose = true) :
    a.optionalText name = b.optionalText name := by
  obtain ⟨p, hp, hname, hloose⟩ := hm
  rw [Arguments.optionalText, Arguments.optionalText, ← hname]
  exact h.loose p hp hloose

theorem ReadAlike.get? (h : ReadAlike params a b) (name : String)
    (hm : ∃ p ∈ params, p.name = name.toList ∧ p.isLoose = false) :
    a.get? name.toList = b.get? name.toList := by
  obtain ⟨p, hp, hname, hstrict⟩ := hm
  rw [← hname]
  exact h.strict p hp hstrict

theorem ReadAlike.requireText (h : ReadAlike params a b) (name : String)
    (hm : ∃ p ∈ params, p.name = name.toList ∧ p.isLoose = false) :
    a.requireText name = b.requireText name :=
  requireText_congr (h.get? name hm)

theorem ReadAlike.mono {params' : List Param} (h : ReadAlike params a b)
    (hsub : params' ⊆ params) : ReadAlike params' a b :=
  ⟨fun p hp => h.loose p (hsub hp), fun p hp => h.strict p (hsub hp)⟩

/-- Arguments that agree on the names of the parameters are the same to them. -/
theorem AgreeOn.readAlike (h : AgreeOn (params.map Param.name) a b) : ReadAlike params a b :=
  have hget : ∀ p ∈ params, a.get? p.name = b.get? p.name :=
    fun _ hp => h _ (List.mem_map_of_mem hp)
  ⟨fun p hp _ => by rw [hget p hp], fun p hp _ => hget p hp⟩

end ReadAlike

/-! ## Jobs -/

section Jobs

variable {a b : Arguments}

theorem labelValues_congr {o o' : SelectorOptions} (h : o.pairs = o'.pairs) (label : Text) :
    Call.labelValues label o = Call.labelValues label o' := by
  rw [Call.labelValues, Call.labelValues, h]

theorem labelNames_congr {o o' : SelectorOptions} (h : o.pairs = o'.pairs) :
    Call.labelNames o = Call.labelNames o' := by
  rw [Call.labelNames, Call.labelNames, h]

theorem AgreeOn.get? {names : List Text} (h : AgreeOn names a b) (name : String)
    (hm : name.toList ∈ names) : a.get? name.toList = b.get? name.toList :=
  h _ hm

theorem AgreeExcept.agreeOn {names names' : List Text} (h : AgreeExcept names a b)
    (hother : ∀ n ∈ names', n ∉ names) : AgreeOn names' a b :=
  fun n hn => h n (hother n hn)

theorem ownParams_subset (tool : Tool) : tool.ownParams ⊆ tool.params :=
  fun _ hp => List.mem_append_left _ (List.mem_append_right _ hp)

/-- Every tool declares that everything may be asked for. -/
theorem unlimited_mem_paramNames (tool : Tool) : "unlimited".toList ∈ tool.paramNames := by
  cases tool <;> decide

/-- Every tool declares an address and a tenant, which may be left out. -/
theorem isLoose_of_target (tool : Tool) : ∀ name ∈ ["prometheus_url", "org_id"],
    ∃ p ∈ tool.params, p.name = name.toList ∧ p.isLoose = true := by
  cases tool <;> decide

/-- **A tool's own parameters make the job**, together with the limit of the listing of metrics and,
for a listing that is capped, whether everything is asked for. -/
theorem job_of_readAlike {tool : Tool} (h : ReadAlike tool.ownParams a b)
    (hu : tool.cap? ≠ none → a.isUnlimited = b.isUnlimited)
    (hl : tool = .listMetrics → limitPair a = limitPair b) : tool.job a = tool.job b := by
  cases tool with
  | executeQuery =>
    have hoptions := queryOptions_congr (h.optionalText "timeout" (by decide))
      (h.optionalText "limit" (by decide)) (h.optionalText "stats" (by decide))
      (h.optionalText "lookback_delta" (by decide))
    rw [Tool.job, Tool.job, h.requireText "query" (by decide), h.optionalText "time" (by decide),
      hoptions]
  | executeRangeQuery =>
    have hoptions := queryOptions_congr (h.optionalText "timeout" (by decide))
      (h.optionalText "limit" (by decide)) (h.optionalText "stats" (by decide))
      (h.optionalText "lookback_delta" (by decide))
    rw [Tool.job, Tool.job, h.requireText "query" (by decide), h.requireText "start" (by decide),
      h.requireText "end" (by decide), h.requireText "step" (by decide), hoptions]
  | queryExemplars =>
    rw [Tool.job, Tool.job, h.requireText "query" (by decide), h.requireText "start" (by decide),
      h.requireText "end" (by decide)]
  | listMetrics =>
    have hpairs := selectorOptions_pairs_congr (h.optionalText "start_time" (by decide))
      (h.optionalText "end_time" (by decide)) (h.get? "matches" (by decide)) (hl rfl)
    rw [Tool.job, Tool.job, hu nofun, Call.metricNames, Call.metricNames, labelValues_congr hpairs]
  | getMetricMetadata =>
    rw [Tool.job, Tool.job, h.requireText "metric" (by decide), h.optionalText "limit" (by decide)]
  | listLabelNames =>
    have hpairs := selectorOptions_pairs_congr (h.optionalText "start_time" (by decide))
      (h.optionalText "end_time" (by decide)) (h.get? "matches" (by decide))
      (limitPair_of_optionalText (h.optionalText "limit" (by decide)))
    rw [Tool.job, Tool.job, labelNames_congr hpairs]
  | listLabelValues =>
    have hpairs := selectorOptions_pairs_congr (h.optionalText "start_time" (by decide))
      (h.optionalText "end_time" (by decide)) (h.get? "matches" (by decide))
      (limitPair_of_optionalText (h.optionalText "limit" (by decide)))
    rw [Tool.job, Tool.job, hu nofun, h.requireText "label" (by decide)]
    simp only [labelValues_congr hpairs]
  | findSeries =>
    rw [Tool.job, Tool.job, hu nofun, requireTexts_congr (h.get? "matches" (by decide))]
    simp only [Arguments.selectorOptions, h.optionalText "start_time" (by decide),
      h.optionalText "end_time" (by decide), h.optionalText "limit" (by decide)]
  | getTargetsMetadata =>
    rw [Tool.job, Tool.job, h.optionalText "match_target" (by decide),
      h.optionalText "metric" (by decide), h.optionalText "limit" (by decide)]
  | getTsdbStats => rw [Tool.job, Tool.job, h.optionalText "limit" (by decide)]
  | getAlerts | getAlertmanagers | getRules | getTargets | getBuildInfo | getRuntimeInfo | getFlags
  | getConfig => rfl

theorem job_congr {tool : Tool} (h : AgreeOn tool.ownNames a b)
    (hu : tool.cap? ≠ none → a.isUnlimited = b.isUnlimited)
    (hl : tool = .listMetrics → limitPair a = limitPair b) : tool.job a = tool.job b :=
  job_of_readAlike h.readAlike hu hl

end Jobs

/-! ## Tool calls -/

section Dispatch

variable {a b : Arguments} {tool : Tool}

/-- Tool calls with the same client, the same job and the same wish for everything are the same. -/
theorem dispatch_eq_of_job {c : Config} {name : Text}
    (hclient : Client.forCall (some Program.agent) c.connection a.url a.orgId =
      Client.forCall (some Program.agent) c.connection b.url b.orgId)
    (hu : a.isUnlimited = b.isUnlimited)
    (hjob : ∀ tool, Tool.find? name = some tool → tool.job a = tool.job b) :
    dispatch c name a = dispatch c name b := by
  unfold dispatch execute
  cases hf : Tool.find? name with
  | none => rfl
  | some tool => simp only [Tool.perform, hclient, hu, hjob tool hf]

/-- **Tool calls with arguments that are the same to the tool** are the same. -/
theorem dispatch_of_readAlike (h : ReadAlike tool.params a b) (hu : a.isUnlimited = b.isUnlimited)
    (hl : tool = .listMetrics → limitPair a = limitPair b) (c : Config) :
    dispatch c tool.name a = dispatch c tool.name b := by
  have hurl : a.url = b.url := h.optionalText _ (isLoose_of_target tool _ (by decide))
  have horg : a.orgId = b.orgId := h.optionalText _ (isLoose_of_target tool _ (by decide))
  refine dispatch_eq_of_job (by rw [hurl, horg]) hu fun tool' hf => ?_
  rw [find?_name, Option.some.injEq] at hf
  subst hf
  exact job_of_readAlike (h.mono (ownParams_subset tool)) (fun _ => hu) hl

theorem dispatch_congr (h : AgreeOn tool.paramNames a b)
    (hl : tool = .listMetrics → limitPair a = limitPair b) (c : Config) :
    dispatch c tool.name a = dispatch c tool.name b :=
  dispatch_of_readAlike h.readAlike
    (isUnlimited_congr (h.get? "unlimited" (unlimited_mem_paramNames tool))) hl c

theorem selectorOptions_pairs_eq_ok {pairs : List Form.Pair}
    (h : a.selectorOptions.pairs = .ok pairs) : ∃ front back,
      { a.selectorOptions with limit := none }.pairs = .ok front ∧ limitPair a = .ok back ∧
      pairs = front ++ back := by
  simp only [SelectorOptions.pairs, bind_eq_ok, pure_eq_ok] at h
  obtain ⟨start, hstart, stop, hstop, back, hback, rfl⟩ := h
  refine ⟨_, back, ?_, hback, rfl⟩
  simp only [SelectorOptions.pairs, bind_eq_ok, pure_eq_ok]
  exact ⟨start, hstart, stop, hstop, [], rfl, List.append_nil _⟩

/-- The pair of the limit stands at the end of the query of the listing of metrics. -/
theorem query_of_listMetrics {c : Config} {server : Backend} {r : Request}
    (hr : r ∈ sent c Tool.listMetrics.name a server) : ∃ url base front back,
      effectiveUrl c a = some url ∧ Url.parse url = .ok base ∧
      { a.selectorOptions with limit := none }.pairs = .ok front ∧ limitPair a = .ok back ∧
      Form.parse (r.url.query.getD []) = Form.parse (base.query.getD []) ++ (front ++ back) := by
  obtain ⟨tool, client, j, k, hfind, -, hclient, hj, hk, hreq⟩ := mem_sent.mp hr
  obtain ⟨url, hurl, hbase, -, -⟩ := forCall_eq_ok hclient
  rw [find?_name, Option.some.injEq] at hfind
  subst hfind
  cases Except.ok.inj hj
  obtain ⟨front, back, hfront, hback, hpairs⟩ :=
    selectorOptions_pairs_eq_ok (pairs_of_labelValues hk)
  exact ⟨url, client.base, front, back, hurl, hbase, hfront, hback,
    hpairs ▸ query_of_request hreq⟩

/-- A request that two listings of metrics share has the limit of both. -/
theorem limitPair_eq_of_sent (h : AgreeOn Tool.listMetrics.paramNames a b) {c : Config}
    {server server' : Backend} {r : Request} (ha : r ∈ sent c Tool.listMetrics.name a server)
    (hb : r ∈ sent c Tool.listMetrics.name b server') : limitPair a = limitPair b := by
  obtain ⟨url, base, front, back, hurl, hbase, hfront, hback, hq⟩ := query_of_listMetrics ha
  obtain ⟨url', base', front', back', hurl', hbase', hfront', hback', hq'⟩ :=
    query_of_listMetrics hb
  have hsame : effectiveUrl c a = effectiveUrl c b := by
    rw [effectiveUrl, effectiveUrl, Arguments.url, Arguments.url,
      optionalText_congr (h.get? "prometheus_url" (by decide))]
  have hfronts : { a.selectorOptions with limit := none } =
      { b.selectorOptions with limit := none } := by
    simp only [Arguments.selectorOptions, optionalText_congr (h.get? "start_time" (by decide)),
      optionalText_congr (h.get? "end_time" (by decide)),
      texts_congr (h.get? "matches" (by decide))]
  rw [hsame, hurl', Option.some.injEq] at hurl
  subst hurl
  rw [hbase', Except.ok.injEq] at hbase
  subst hbase
  rw [hfronts, hfront', Except.ok.injEq] at hfront
  subst hfront
  rw [hq'] at hq
  rw [hback, hback', List.append_cancel_left (List.append_cancel_left hq)]

/-- **Only declared parameters matter**, and the limit of the listing of metrics.  Arguments that
agree on them send the same requests and have the same results.  The limit that the listing of
metrics does not declare does matter: listings that send the same request agree on it as well. -/
theorem dispatch_eq_of_agreeOn (h : AgreeOn tool.paramNames a b) :
    ((tool = .listMetrics → limitPair a = limitPair b) →
      ∀ c, dispatch c tool.name a = dispatch c tool.name b) ∧
    (tool = .listMetrics → ∀ c server server' r, r ∈ sent c tool.name a server →
      r ∈ sent c tool.name b server' → limitPair a = limitPair b) := by
  refine ⟨dispatch_congr h, ?_⟩
  rintro rfl c server server' r ha hb
  exact limitPair_eq_of_sent h ha hb

end Dispatch

/-- A configured address. -/
def addressedConfig : Config :=
  { connection := { url := some "https://h".toList } }

/-- Arguments with a limit alone. -/
def limitArguments : Arguments :=
  [("limit".toList, .number (.natural 5))]

/-- Two listings of metrics that differ in an undeclared limit alone.  What the one sends, the other
does not. -/
theorem sent_ne_of_limit : AgreeOn Tool.listMetrics.paramNames limitArguments [] ∧
    ∃ r ∈ sent addressedConfig Tool.listMetrics.name limitArguments Backend.offline,
      r.url.query = some "limit=5".toList ∧
      r ∉ sent addressedConfig Tool.listMetrics.name [] Backend.offline := by
  have h : AgreeOn Tool.listMetrics.paramNames limitArguments [] := by
    intro n hn
    have hne : n ≠ "limit".toList := by
      rintro rfl
      exact absurd hn (by decide)
    rw [limitArguments, Table.get?, List.lookup_cons, beq_false_of_ne hne]
    rfl
  let r : Request := ⟨⟨.https, [], none, ['h'], none, ["api".toList, "v1".toList, "label".toList,
    "__name__".toList, "values".toList], some "limit=5".toList, none⟩,
    [⟨Header.userAgent, Program.agent⟩], Span.ofSeconds 30⟩
  have hr : r ∈ sent addressedConfig Tool.listMetrics.name limitArguments Backend.offline := by
    decide +kernel
  refine ⟨h, r, hr, rfl, fun hb => ?_⟩
  have hl := (dispatch_eq_of_agreeOn h).2 rfl _ _ _ r hr hb
  exact absurd (congrArg Except.toOption hl) (by decide)

end MetricsBridge
