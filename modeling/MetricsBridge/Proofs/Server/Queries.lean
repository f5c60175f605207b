import MetricsBridge.Proofs.Server.Calling

/-!
# The query of a request

Each tool has slots: the pairs that its call may put into the query, the arguments that they come
from, and how their values are spelled.  `sent_query` says that the query of a request, decoded as a
form, is that of the base followed by the pairs of the slots that are filled, and nothing else.
-/
namespace MetricsBridge

/-! ## Slots -/

/-- How the value of an argument is spelled in a query. -/
inductive Spelling where
  | verbatim
  | time
  | step
  | span
  | limit
  deriving DecidableEq, Repr

/-- A value as it is spelled, if it makes sense: times in Unix seconds, steps and spans without the
blanks around them, and limits as decimal numerals below `2 ^ 64`. -/
def Spelling.write? : Spelling → Text → Option Text
  | .verbatim, t => some t
  | .time, t => Timestamp.normalize? t
  | .step, t => ((Span.parse? t).filter fun span => span.nanos ≠ 0).map fun _ => Text.trim t
  | .span, t => (Span.parse? t).map fun _ => Text.trim t
  | .limit, t => (Text.toNatBelow? (Nat.pow 2 64) (Text.trim t)).map Text.ofNat

/-- A place in a query: for one pair with the value of an argument that has to be given or may be
left out, or for a pair with each of its texts. -/
inductive Slot where
  | required (name argument : String) (spelling : Spelling)
  | optional (name argument : String) (spelling : Spelling)
  | each (name argument : String)
  deriving DecidableEq, Repr

/-- The slots of the options of a query. -/
def querySlots : List Slot :=
  [.optional "timeout" "timeout" .span, .optional "limit" "limit" .limit,
   .optional "stats" "stats" .verbatim, .optional "lookback_delta" "lookback_delta" .span]

/-- The slots of the options of a listing. -/
def selectorSlots : List Slot :=
  [.optional "start" "start_time" .time, .optional "end" "end_time" .time,
   .each "match[]" "matches", .optional "limit" "limit" .limit]

/-- The slots of a tool. -/
def Tool.slots : Tool → List Slot
  | .executeQuery =>
    [.required "query" "query" .verbatim, .optional "time" "time" .time] ++ querySlots
  | .executeRangeQuery =>
    [.required "query" "query" .verbatim, .required "start" "start" .time,
     .required "end" "end" .time, .required "step" "step" .step] ++ querySlots
  | .queryExemplars =>
    [.required "query" "query" .verbatim, .required "start" "start" .time,
     .required "end" "end" .time]
  | .listMetrics | .listLabelNames | .listLabelValues | .findSeries => selectorSlots
  | .getMetricMetadata => [.required "metric" "metric" .verbatim, .optional "limit" "limit" .limit]
  | .getTargetsMetadata =>
    [.optional "match_target" "match_target" .verbatim, .optional "metric" "metric" .verbatim,
     .optional "limit" "limit" .limit]
  | .getTsdbStats => [.optional "limit" "limit" .limit]
  | .getAlerts | .getAlertmanagers | .getRules | .getTargets | .getBuildInfo | .getRuntimeInfo
  | .getFlags | .getConfig => []

/-- The pairs of the slots that arguments fill, in order.  There are none at all if an argument that
has to be given is not, or if the value of a filled slot makes no sense. -/
def slotPairs? (args : Arguments) : List Slot → Option (List Form.Pair)
  | [] => some []
  | .required name argument spelling :: slots =>
    (args.requireText argument).toOption.bind fun value =>
      (spelling.write? value).bind fun t =>
        (slotPairs? args slots).map fun rest => (name.toList, t) :: rest
  | .optional name argument spelling :: slots =>
    match args.optionalText argument with
    | none => slotPairs? args slots
    | some value =>
      (spelling.write? value).bind fun t =>
        (slotPairs? args slots).map fun rest => (name.toList, t) :: rest
  | .each name argument :: slots =>
    (slotPairs? args slots).map fun rest => (args.texts argument).map (name.toList, ·) ++ rest

/-! ## Filling slots -/

section Filling

variable {args : Arguments} {name argument : String} {spelling : Spelling} {slots : List Slot}
  {rest : List Form.Pair}

/-- A check that lets through the values that a spelling can write. -/
def Spelling.IsCheckedBy (spelling : Spelling) (check : Text → Except CallError Text) : Prop :=
  ∀ value t, check value = .ok t → spelling.write? value = some t

theorem verbatim_isCheckedBy : Spelling.verbatim.IsCheckedBy .ok := by
  intro value t h
  rw [Except.ok.injEq] at h
  rw [Spelling.write?, h]

theorem time_isCheckedBy : Spelling.time.IsCheckedBy checkTime := by
  intro value t h
  unfold checkTime at h
  split at h
  · next t' ht =>
    rw [Except.ok.injEq] at h
    rw [Spelling.write?, ht, h]
  · exact absurd h (by simp)

theorem step_isCheckedBy : Spelling.step.IsCheckedBy checkStep := by
  intro value t h
  unfold checkStep Span.step? at h
  cases hs : Span.parse? value with
  | none => simp [hs] at h
  | some span =>
    by_cases hz : span.nanos = 0
    · simp [hs, hz] at h
    · simp only [hs, hz, Option.bind_eq_bind, Option.bind_some, if_false, Except.ok.injEq] at h
      simp [Spelling.write?, hs, hz, h]

theorem span_isCheckedBy : Spelling.span.IsCheckedBy spanText := by
  intro value t h
  unfold spanText checkSpan at h
  cases hs : Span.parse? value with
  | none => simp [hs] at h
  | some span =>
    simp only [hs, except_map_eq_ok] at h
    obtain ⟨-, -, rfl⟩ := h
    simp [Spelling.write?, hs]

theorem limit_isCheckedBy : Spelling.limit.IsCheckedBy limitText := by
  intro value t h
  unfold limitText checkLimit at h
  cases hn : Text.toNatBelow? (Nat.pow 2 64) (Text.trim value) with
  | none =>
    rw [hn] at h
    cases h
  | some n =>
    rw [hn, except_map_eq_ok] at h
    obtain ⟨m, hm, rfl⟩ := h
    cases hm
    rw [Spelling.write?, hn, Option.map_some]

/-- An argument that may be left out fills its slot if it is there. -/
theorem slotPairs?_optional {check : Text → Except CallError Text}
    (hs : spelling.IsCheckedBy check) {pairs : List Form.Pair}
    (h : optionPair name (args.optionalText argument) check = .ok pairs)
    (hrest : slotPairs? args slots = some rest) :
    slotPairs? args (.optional name argument spelling :: slots) = some (pairs ++ rest) := by
  unfold slotPairs?
  cases hv : args.optionalText argument with
  | none =>
    rw [hv, optionPair, Except.ok.injEq] at h
    subst h
    exact hrest
  | some value =>
    rw [hv, optionPair] at h
    obtain ⟨t, ht, rfl⟩ := except_map_eq_ok.mp h
    simp [hs value t ht, hrest]

/-- An argument that has to be given fills its slot. -/
theorem slotPairs?_required (name : String) {value t : Text}
    (h : args.requireText argument = .ok value) (ht : spelling.write? value = some t)
    (hrest : slotPairs? args slots = some rest) :
    slotPairs? args (.required name argument spelling :: slots) =
      some ((name.toList, t) :: rest) := by
  simp [slotPairs?, h, ht, hrest, Except.toOption]

theorem slotPairs?_each (hrest : slotPairs? args slots = some rest) :
    slotPairs? args (.each name argument :: slots) =
      some ((args.texts argument).map (name.toList, ·) ++ rest) := by
  simp [slotPairs?, hrest]

end Filling

/-! ## The pairs of calls -/

section Calls

variable {args : Arguments} {pairs : List Form.Pair}

theorem slotPairs?_limit
    (h : optionPair "limit" (args.optionalText "limit") limitText = .ok pairs) :
    slotPairs? args [.optional "limit" "limit" .limit] = some pairs := by
  have hnil : slotPairs? args [] = some [] := rfl
  simpa using slotPairs?_optional limit_isCheckedBy h hnil

theorem slotPairs?_queryOptions (h : args.queryOptions.pairs = .ok pairs) :
    slotPairs? args querySlots = some pairs := by
  simp only [QueryOptions.pairs, bind_eq_ok, pure_eq_ok] at h
  obtain ⟨timeout, htimeout, limit, hlimit, stats, hstats, lookback, hlookback, rfl⟩ := h
  have h5 : slotPairs? args [] = some [] := rfl
  have h4 := slotPairs?_optional span_isCheckedBy hlookback h5
  have h3 := slotPairs?_optional verbatim_isCheckedBy hstats h4
  have h2 := slotPairs?_optional limit_isCheckedBy hlimit h3
  have h1 := slotPairs?_optional span_isCheckedBy htimeout h2
  simpa [querySlots] using h1

theorem slotPairs?_selectorOptions (h : args.selectorOptions.pairs = .ok pairs) :
    slotPairs? args selectorSlots = some pairs := by
  simp only [SelectorOptions.pairs, bind_eq_ok, pure_eq_ok] at h
  obtain ⟨start, hstart, stop, hstop, limit, hlimit, rfl⟩ := h
  have h4 := slotPairs?_limit hlimit
  have h3 : slotPairs? args (.each "match[]" "matches" :: _) = _ := slotPairs?_each h4
  have h2 := slotPairs?_optional time_isCheckedBy hstop h3
  have h1 := slotPairs?_optional time_isCheckedBy hstart h2
  have hm : args.selectorOptions.matchers = args.texts "matches" := rfl
  simpa [selectorSlots, hm] using h1

theorem optionPair_verbatim (name : String) (value : Option Text) :
    optionPair name value .ok = .ok (value.map fun v => (name.toList, v)).toList := by
  cases value <;> rfl

theorem texts_of_requireTexts {name : String} {texts : List Text}
    (h : args.requireTexts name = .ok texts) : args.texts name = texts := by
  unfold Arguments.requireTexts at h
  split at h
  · exact absurd h (by simp)
  · next t rest ht => rw [ht, Except.ok.inj h]

theorem slotPairs?_query {expr : Text} (hexpr : args.requireText "query" = .ok expr)
    {k : Call QueryData}
    (h : Call.query expr (args.optionalText "time") args.queryOptions = .ok k) :
    slotPairs? args Tool.executeQuery.slots = some k.pairs := by
  simp only [Call.query, bind_eq_ok, pure_eq_ok] at h
  obtain ⟨time, htime, options, hoptions, _, -, rfl⟩ := h
  have h2 := slotPairs?_optional time_isCheckedBy htime (slotPairs?_queryOptions hoptions)
  exact slotPairs?_required "query" hexpr rfl h2

theorem slotPairs?_queryRange {expr start stop step : Text}
    (hexpr : args.requireText "query" = .ok expr) (hstart : args.requireText "start" = .ok start)
    (hstop : args.requireText "end" = .ok stop) (hstep : args.requireText "step" = .ok step)
    {k : Call QueryData} (h : Call.queryRange expr start stop step args.queryOptions = .ok k) :
    slotPairs? args Tool.executeRangeQuery.slots = some k.pairs := by
  simp only [Call.queryRange, bind_eq_ok, pure_eq_ok] at h
  obtain ⟨t, ht, t', ht', s, hs, options, hoptions, _, -, rfl⟩ := h
  have h5 := slotPairs?_queryOptions hoptions
  have h4 := slotPairs?_required "step" hstep (step_isCheckedBy step s hs) h5
  have h3 := slotPairs?_required "end" hstop (time_isCheckedBy stop t' ht') h4
  have h2 := slotPairs?_required "start" hstart (time_isCheckedBy start t ht) h3
  exact slotPairs?_required "query" hexpr rfl h2

theorem slotPairs?_queryExemplars {expr start stop : Text}
    (hexpr : args.requireText "query" = .ok expr) (hstart : args.requireText "start" = .ok start)
    (hstop : args.requireText "end" = .ok stop) {k : Call Json}
    (h : Call.queryExemplars expr start stop = .ok k) :
    slotPairs? args Tool.queryExemplars.slots = some k.pairs := by
  simp only [Call.queryExemplars, bind_eq_ok, pure_eq_ok] at h
  obtain ⟨t, ht, t', ht', rfl⟩ := h
  have h4 : slotPairs? args [] = some [] := rfl
  have h3 := slotPairs?_required "end" hstop (time_isCheckedBy stop t' ht') h4
  have h2 := slotPairs?_required "start" hstart (time_isCheckedBy start t ht) h3
  exact slotPairs?_required "query" hexpr rfl h2

theorem pairs_of_labelValues {label : Text} {options : SelectorOptions} {k : Call (List Text)}
    (h : Call.labelValues label options = .ok k) : options.pairs = .ok k.pairs := by
  simp only [Call.labelValues, bind_eq_ok, pure_eq_ok] at h
  obtain ⟨pairs, hpairs, rfl⟩ := h
  exact hpairs

theorem pairs_of_labelNames {options : SelectorOptions} {k : Call (List Text)}
    (h : Call.labelNames options = .ok k) : options.pairs = .ok k.pairs := by
  simp only [Call.labelNames, bind_eq_ok, pure_eq_ok] at h
  obtain ⟨pairs, hpairs, rfl⟩ := h
  exact hpairs

theorem pairs_of_series {options : SelectorOptions} {k : Call (List Labels)}
    (h : Call.series options = .ok k) : options.pairs = .ok k.pairs := by
  simp only [Call.series, bind_eq_ok, pure_eq_ok] at h
  obtain ⟨pairs, hpairs, rfl⟩ := h
  exact hpairs

theorem pairs_of_lookUp {segments : List String} {named : List (String × Option Text)}
    {limit : Option Text} {k : Call Json} (h : Call.lookUp segments named limit = .ok k) :
    ∃ pairs, optionPair "limit" limit limitText = .ok pairs ∧ k.pairs =
      named.filterMap (fun (name, value) => value.map fun v => (name.toList, v)) ++ pairs := by
  simp only [Call.lookUp, bind_eq_ok, pure_eq_ok] at h
  obtain ⟨pairs, hpairs, rfl⟩ := h
  exact ⟨pairs, hpairs, rfl⟩

end Calls

/-- **The pairs of the call of a tool are those of its filled slots.** -/
theorem slotPairs?_of_job {args : Arguments} {tool : Tool} {j : Job} (hj : tool.job args = .ok j)
    {k : Call j.Data} (hk : j.call = .ok k) : slotPairs? args tool.slots = some k.pairs := by
  cases tool with
  | executeQuery =>
    obtain ⟨expr, hexpr, rfl⟩ := except_map_eq_ok.mp hj
    exact slotPairs?_query hexpr hk
  | executeRangeQuery =>
    obtain ⟨expr, hexpr, hj⟩ := except_bind_eq_ok.mp hj
    obtain ⟨start, hstart, hj⟩ := except_bind_eq_ok.mp hj
    obtain ⟨stop, hstop, hj⟩ := except_bind_eq_ok.mp hj
    obtain ⟨step, hstep, rfl⟩ := except_map_eq_ok.mp hj
    exact slotPairs?_queryRange hexpr hstart hstop hstep hk
  | queryExemplars =>
    obtain ⟨expr, hexpr, hj⟩ := except_bind_eq_ok.mp hj
    obtain ⟨start, hstart, hj⟩ := except_bind_eq_ok.mp hj
    obtain ⟨stop, hstop, rfl⟩ := except_map_eq_ok.mp hj
    exact slotPairs?_queryExemplars hexpr hstart hstop hk
  | listMetrics =>
    cases Except.ok.inj hj
    exact slotPairs?_selectorOptions (pairs_of_labelValues hk)
  | getMetricMetadata =>
    obtain ⟨metric, hmetric, rfl⟩ := except_map_eq_ok.mp hj
    obtain ⟨pairs, hpairs, hk⟩ := pairs_of_lookUp hk
    have h2 := slotPairs?_limit hpairs
    rw [hk]
    exact slotPairs?_required "metric" hmetric rfl h2
  | listLabelNames =>
    cases Except.ok.inj hj
    exact slotPairs?_selectorOptions (pairs_of_labelNames hk)
  | listLabelValues =>
    obtain ⟨label, -, rfl⟩ := except_map_eq_ok.mp hj
    exact slotPairs?_selectorOptions (pairs_of_labelValues hk)
  | findSeries =>
    obtain ⟨matchers, hmatchers, rfl⟩ := except_map_eq_ok.mp hj
    have hm : args.texts "matches" = matchers := texts_of_requireTexts hmatchers
    subst hm
    exact slotPairs?_selectorOptions (pairs_of_series hk)
  | getTargetsMetadata =>
    cases Except.ok.inj hj
    obtain ⟨pairs, hpairs, hk⟩ := pairs_of_lookUp hk
    have htarget := optionPair_verbatim "match_target" (args.optionalText "match_target")
    have hmetric := optionPair_verbatim "metric" (args.optionalText "metric")
    have h2 := slotPairs?_optional verbatim_isCheckedBy hmetric (slotPairs?_limit hpairs)
    refine (slotPairs?_optional verbatim_isCheckedBy htarget h2).trans ?_
    rw [hk]
    cases args.optionalText "match_target" <;> cases args.optionalText "metric" <;> rfl
  | getTsdbStats =>
    cases Except.ok.inj hj
    obtain ⟨pairs, hpairs, hk⟩ := pairs_of_lookUp hk
    rw [hk]
    exact slotPairs?_limit hpairs
  | getAlerts | getAlertmanagers | getRules | getTargets | getBuildInfo | getRuntimeInfo | getFlags
  | getConfig =>
    cases Except.ok.inj hj
    cases Except.ok.inj hk
    rfl

/-! ## Main statement -/

theorem query_of_request {α : Type} {client : Client} {k : Call α} {r : Request}
    (h : client.request k = .ok r) :
    Form.parse (r.url.query.getD []) = Form.parse (client.base.query.getD []) ++ k.pairs := by
  rw [(Request.build_eq_ok h).1, Url.takeAuthorization_query]
  exact Url.parse_addPairs client.base.query k.pairs

/-- **What a tool call asks.**  The query of a request, decoded as a form, has the pairs of the base
and behind them those of the slots that the arguments fill, in order. -/
theorem sent_query {c : Config} {name : Text} {args : Arguments} {server : Backend} {r : Request}
    (h : r ∈ sent c name args server) : ∃ tool url base pairs,
      Tool.find? name = some tool ∧ effectiveUrl c args = some url ∧ Url.parse url = .ok base ∧
      slotPairs? args tool.slots = some pairs ∧
      Form.parse (r.url.query.getD []) = Form.parse (base.query.getD []) ++ pairs := by
  obtain ⟨tool, client, j, k, hfind, -, hclient, hj, hk, hr⟩ := mem_sent.mp h
  obtain ⟨url, hurl, hbase, -, -⟩ := forCall_eq_ok hclient
  exact ⟨tool, url, client.base, k.pairs, hfind, hurl, hbase, slotPairs?_of_job hj hk,
    query_of_request hr⟩

/-- A configured address with a query of its own. -/
def queriedConfig : Config :=
  { connection := { url := some "http://h/?a=1".toList } }

/-- Arguments with characters that a form reserves. -/
def reservedArguments : Arguments :=
  [("limit".toList, .number (.natural 7)), ("query".toList, .text "a&b = c+%2B\né".toList),
   ("timeout".toList, .text " 5s ".toList)]

theorem sent_query_of_reserved :
    ∃ r ∈ sent queriedConfig "execute_query".toList reservedArguments Backend.offline,
      r.url.query = some "a=1&query=a%26b+%3D+c%2B%252B%0A%C3%A9&timeout=5s&limit=7".toList ∧
      ∃ tool url base pairs, Tool.find? "execute_query".toList = some tool ∧
        effectiveUrl queriedConfig reservedArguments = some url ∧ Url.parse url = .ok base ∧
        slotPairs? reservedArguments tool.slots = some pairs ∧
        Form.parse (r.url.query.getD []) = Form.parse (base.query.getD []) ++ pairs := by
  let r : Request :=
    ⟨⟨.http, [], none, ['h'], none, ["api".toList, "v1".toList, "query".toList],
      some "a=1&query=a%26b+%3D+c%2B%252B%0A%C3%A9&timeout=5s&limit=7".toList, none⟩,
      [⟨Header.userAgent, Program.agent⟩], Span.ofSeconds 30⟩
  have hr : r ∈ sent queriedConfig "execute_query".toList reservedArguments Backend.offline := by
    decide +kernel
  exact ⟨r, hr, rfl, sent_query hr⟩

end MetricsBridge
