import MetricsBridge.Proofs.Backend.ErrorAnswer
import MetricsBridge.Proofs.Json.RoundTrip
import MetricsBridge.Proofs.Server.Parameters

/-!
# Data that are shown as they came

Ten tools show the data of an answer under a heading, and two show the result that the data of a
query hold.  What is shown is a text that is read as the very value in the answer, wherever it
stands there and however it is written (`data_are_shown_intact`), since reading inverts the pretty
form.
-/
namespace MetricsBridge

open Json Json.Decoder

namespace Tool

/-- The tools that show the data of an answer. -/
def showing : List Tool :=
  [.queryExemplars, .getMetricMetadata, .getTargetsMetadata, .getAlerts, .getAlertmanagers,
   .getRules, .getBuildInfo, .getRuntimeInfo, .getFlags, .getTsdbStats]

/-- The tools that show the result of a query. -/
def querying : List Tool :=
  [.executeQuery, .executeRangeQuery]

/-- A line that quotes a text, which is given. -/
def quoting (lead : String) (t : Option Text) : Text :=
  lead.toList ++ t.getD [] ++ "':\n".toList

theorem quoting_some (lead : String) (t : Text) :
    quoting lead (some t) = lead.toList ++ t ++ "':".toList ++ ['\n'] := by
  rw [quoting, Option.getD_some, List.append_assoc _ "':".toList]
  rfl

/-- The line above the data that a tool shows. -/
def heading (args : Arguments) : Tool → Text
  | .queryExemplars => quoting "Exemplars for query '" (args.optionalText "query")
  | .getMetricMetadata => quoting "Metadata for metric '" (args.optionalText "metric")
  | .getTargetsMetadata => "Targets Metadata:\n".toList
  | .getAlerts => "Active Alerts:\n".toList
  | .getAlertmanagers => "AlertManager Discovery:\n".toList
  | .getRules => "Prometheus Rules:\n".toList
  | .getBuildInfo => "Prometheus Build Information:\n".toList
  | .getRuntimeInfo => "Prometheus Runtime Information:\n".toList
  | .getFlags => "Prometheus Runtime Flags:\n".toList
  | .getTsdbStats => "TSDB Statistics:\n".toList
  | _ => []

end Tool

/-- The lines above the result of a query. -/
def queryHeading (kind : Text) : Text :=
  "Query executed successfully.\nResult Type: ".toList ++ kind ++ "\nResult: ".toList

/-- A tool call shows the warning that its result is complete, a heading, and a text that is read as
the value. -/
def ShowsInFull (result : Option ToolResult) (heading : Text) (j : Json) : Prop :=
  ∃ t, result = some ⟨Render.unlimitedWarning ++ heading ++ t, false⟩ ∧ Json.parse t = .ok j

/-! ### Jobs -/

theorem optionalText_of_requireText {args : Arguments} {name : String} {t : Text}
    (h : args.requireText name = .ok t) : args.optionalText name = some t := by
  rw [Arguments.requireText] at h
  split at h
  · next c rest hget =>
    cases h
    rw [Arguments.optionalText, hget]
    rfl
  · cases h

/-- **A tool that shows data** asks for any JSON, and shows it under its heading. -/
theorem job_of_mem_showing {tool : Tool} {args : Arguments} {j : Job} (htool : tool ∈ Tool.showing)
    (hj : tool.job args = .ok j) : ∃ action title call, j = Job.showing action title call ∧
      tool.heading args = title ++ ['\n'] ∧ HasShape call json := by
  simp only [Tool.showing, List.mem_cons, List.not_mem_nil, or_false] at htool
  rcases htool with rfl | rfl | rfl | rfl | rfl | rfl | rfl | rfl | rfl | rfl
  · simp only [Tool.job, except_bind_eq_ok, except_map_eq_ok] at hj
    obtain ⟨expr, hexpr, start, -, stop, -, rfl⟩ := hj
    have hheading : Tool.heading args .queryExemplars =
      Tool.quoting "Exemplars for query '" (args.optionalText "query") := rfl
    rw [optionalText_of_requireText hexpr, Tool.quoting_some] at hheading
    exact ⟨_, _, _, rfl, hheading, .queryExemplars expr start stop⟩
  · simp only [Tool.job, except_map_eq_ok] at hj
    obtain ⟨metric, hmetric, rfl⟩ := hj
    have hheading : Tool.heading args .getMetricMetadata =
      Tool.quoting "Metadata for metric '" (args.optionalText "metric") := rfl
    rw [optionalText_of_requireText hmetric, Tool.quoting_some] at hheading
    exact ⟨_, _, _, rfl, hheading, .metricMetadata metric _⟩
  all_goals
    rw [Tool.job, Except.ok.injEq] at hj
    subst hj
  · exact ⟨_, _, _, rfl, rfl, .targetsMetadata _ _ _⟩
  · exact ⟨_, _, _, rfl, rfl, .alerts⟩
  · exact ⟨_, _, _, rfl, rfl, .alertmanagers⟩
  · exact ⟨_, _, _, rfl, rfl, .rules⟩
  · exact ⟨_, _, _, rfl, rfl, .buildInfo⟩
  · exact ⟨_, _, _, rfl, rfl, .runtimeInfo⟩
  · exact ⟨_, _, _, rfl, rfl, .flags⟩
  · exact ⟨_, _, _, rfl, rfl, .tsdbStats _⟩

theorem job_of_mem_querying {tool : Tool} {args : Arguments} {j : Job}
    (htool : tool ∈ Tool.querying) (hj : tool.job args = .ok j) :
    ∃ action call, j = Job.querying action call ∧ HasShape call Call.queryData := by
  simp only [Tool.querying, List.mem_cons, List.not_mem_nil, or_false] at htool
  rcases htool with rfl | rfl
  · simp only [Tool.job, except_map_eq_ok] at hj
    obtain ⟨expr, -, rfl⟩ := hj
    exact ⟨_, _, rfl, .query _ _ _⟩
  · simp only [Tool.job, except_bind_eq_ok, except_map_eq_ok] at hj
    obtain ⟨expr, -, start, -, stop, -, step, -, rfl⟩ := hj
    exact ⟨_, _, rfl, .queryRange _ _ _ _ _⟩

/-! ### Answers -/

section Answers

variable {c : Config} {tool : Tool} {args : Arguments} {server : Backend} {r : Request}
  {status : Nat} {body : Text}

/-- What becomes of a tool call whose request is answered: its job makes a text of the answer, which
is limited. -/
theorem result_of_sent (hr : r ∈ sent c tool.name args server) {answer : Answer}
    (hanswer : server [r] = some answer) : ∃ j k, tool.job args = .ok j ∧ j.call = .ok k ∧
      ((dispatch c tool.name args).run server).result = some (ToolResult.ofExcept
        ((j.outcome k r answer).map fun t => Render.limit t args.isUnlimited)) := by
  obtain ⟨tool', client, j, k, hfind, hoffers, hclient, hj, hk, hrequest⟩ := mem_sent.mp hr
  rw [find?_name, Option.some.injEq] at hfind
  subst hfind
  refine ⟨j, k, hj, hk, ?_⟩
  rw [dispatch, Plan.result_run_map, execute, find?_name]
  dsimp only
  rw [hoffers, hclient]
  rw [Bool.not_true, if_neg Bool.false_ne_true, Plan.result_run_map, Tool.perform, hj]
  dsimp only
  rw [perform_of_request hk hrequest, Plan.run_send_done, hanswer]
  rfl

/-- A job makes its text of a good answer. -/
theorem outcome_of_success {j : Job} {k : Call j.Data} {e : Envelope j.Data} {d : j.Data}
    (hread : Envelope.read k.shape body = .ok e) (hstatus : e.status = "success".toList)
    (hdata : e.data = some d) :
    j.outcome k r (.replied status body) = .ok (j.render ⟨d, e.warnings⟩) := by
  have hinterpret : Envelope.interpret k.shape status body = .ok ⟨d, e.warnings⟩ := by
    rw [Envelope.interpret, hread]
    dsimp only
    rw [if_pos hstatus, hdata]
  rw [Job.outcome]
  have hreceive : Client.receive k.shape r (.replied status body) = .ok ⟨d, e.warnings⟩ :=
    hinterpret
  rw [hreceive]

/-- A good answer is shown in full if everything is asked for. -/
theorem result_of_success {j : Job} {k : Call j.Data} {e : Envelope j.Data} {d : j.Data}
    (hread : Envelope.read k.shape body = .ok e) (hstatus : e.status = "success".toList)
    (hdata : e.data = some d) : ToolResult.ofExcept ((j.outcome k r (.replied status body)).map
      fun t => Render.limit t true) =
      ⟨Render.unlimitedWarning ++ j.render ⟨d, e.warnings⟩, false⟩ := by
  rw [outcome_of_success hread hstatus hdata]
  rfl

/-! ### Values -/

variable {ms : List Member}

theorem isReadable_of_holds (hms : ∀ m ∈ ms, m.depth ≤ maxDepth) {name : String} {j : Json}
    (h : Holds ms name json j) : IsReadable maxDepth j := by
  obtain ⟨m, hm, hread⟩ := h
  rw [Member.read, except_map_eq_ok] at hread
  obtain ⟨⟨_, next⟩, hread, rfl⟩ := hread
  have hmem : m ∈ Member.named name ms := hm ▸ List.mem_singleton_self m
  exact (Cursor.isReadable_of_value hread).mono (hms m (List.mem_filter.mp hmem).1)

theorem depth_le_of_holds (hms : ∀ m ∈ ms, m.depth ≤ maxDepth) {name : String} {inner : List Member}
    (h : Holds ms name members inner) : ∀ m ∈ inner, m.depth ≤ maxDepth := by
  obtain ⟨m, hm, hread⟩ := h
  rw [Member.read, except_map_eq_ok] at hread
  obtain ⟨⟨_, next⟩, hread, rfl⟩ := hread
  have hmem : m ∈ Member.named name ms := hm ▸ List.mem_singleton_self m
  intro m' hm'
  exact (depth_le_of_members hread m' hm').trans (hms m (List.mem_filter.mp hmem).1)

/-- The data of an envelope are the value of one member. -/
theorem holds_of_read {α : Type} {shape : Json.Decoder α} (hshape : shape.KeepsPace)
    (hms : members.run body = .ok ms) {e : Envelope α} {d : α}
    (hread : Envelope.read shape body = .ok e) (hdata : e.data = some d) :
    Holds ms "data" (optional shape) (some d) := by
  obtain ⟨_, data, _, _, _, -, hfield, -, -, -, rfl⟩ := (Envelope.read_eq_ok hshape hms).mp hread
  obtain rfl : data = some (some d) := Option.join_eq_some_iff.mp hdata
  exact fieldAfter_eq_some.mp hfield

theorem depth_le_of_run (hms : members.run body = .ok ms) : ∀ m ∈ ms, m.depth ≤ maxDepth := by
  simp only [Decoder.run, bind_eq_ok, pure_eq_ok] at hms
  obtain ⟨⟨_, _⟩, hms, _, -, rfl⟩ := hms
  exact depth_le_of_members hms

/-- What a holder of JSON reads at a member is what stands there in the value of the whole. -/
theorem get?_of_holds (hms : members.run body = .ok ms) {name : String} {j v : Json}
    (h : Holds ms name json j) (hv : Json.parse body = .ok v) : v.get? name.toList = some j := by
  obtain ⟨m, hm, hread⟩ := h
  obtain ⟨j', hread', hget⟩ := (get?_of_run hms hv name).2 m hm
  cases hread.symm.trans hread'
  exact hget

/-- **A tool that shows data** shows those of a good answer. -/
theorem shows_of_mem_showing (hr : r ∈ sent c tool.name args server)
    (hanswer : server [r] = some (.replied status body)) (hunlimited : args.isUnlimited = true)
    (hms : members.run body = .ok ms) (htool : tool ∈ Tool.showing) {e : Envelope Json} {d : Json}
    (hread : Envelope.read json body = .ok e) (hstatus : e.status = "success".toList)
    (hdata : e.data = some d) (hexact : ∀ x ∈ d.doubles, IsExact x) :
    Holds ms "data" json d ∧
      ShowsInFull ((dispatch c tool.name args).run server).result (tool.heading args) d := by
  have hholds : Holds ms "data" json d := by
    obtain ⟨m, hm, hm'⟩ := holds_of_read keepsPace_json hms hread hdata
    exact ⟨m, hm, read_of_read_optional_json hm'⟩
  have hreadable := isReadable_of_holds (depth_le_of_run hms) hholds
  refine ⟨hholds, d.pretty, ?_, parse_pretty hreadable hexact⟩
  obtain ⟨j, k, hj, hk, hresult⟩ := result_of_sent hr hanswer
  obtain ⟨action, title, call, rfl, hheading, hshape⟩ := job_of_mem_showing htool hj
  have hread' : Envelope.read k.shape body = .ok e := hshape.shape_eq hk ▸ hread
  rw [hresult, hunlimited, result_of_success hread' hstatus hdata, hheading, List.append_assoc,
    List.append_assoc]
  rfl

/-- **A tool that shows the result of a query** shows that of a good answer. -/
theorem shows_of_mem_querying (hr : r ∈ sent c tool.name args server)
    (hanswer : server [r] = some (.replied status body)) (hunlimited : args.isUnlimited = true)
    (hms : members.run body = .ok ms) (htool : tool ∈ Tool.querying) {e : Envelope QueryData}
    {q : QueryData} (hread : Envelope.read Call.queryData body = .ok e)
    (hstatus : e.status = "success".toList) (hdata : e.data = some q) {inner : List Member}
    (hinner : Holds ms "data" members inner) (hexact : ∀ x ∈ q.result.doubles, IsExact x) :
    Holds inner "resultType" text q.resultType ∧
      (Member.named "result" inner = [] ∧ q.result = .null ∨ Holds inner "result" json q.result) ∧
      ShowsInFull ((dispatch c tool.name args).run server).result (queryHeading q.resultType)
        q.result := by
  have hdepth := depth_le_of_holds (depth_le_of_run hms) hinner
  obtain ⟨m, hm, hmembers⟩ := hinner
  obtain ⟨m', hm', hqueryData⟩ := holds_of_read Call.keepsPace_queryData hms hread hdata
  cases hm.symm.trans hm'
  obtain ⟨hkind, hvalue⟩ := Call.holds_of_queryData hmembers hqueryData
  refine ⟨hkind, hvalue, q.result.pretty, ?_, parse_pretty ?_ hexact⟩
  · obtain ⟨j, k, hj, hk, hresult⟩ := result_of_sent hr hanswer
    obtain ⟨action, call, rfl, hshape⟩ := job_of_mem_querying htool hj
    have hread' : Envelope.read k.shape body = .ok e := hshape.shape_eq hk ▸ hread
    rw [hresult, hunlimited, result_of_success hread' hstatus hdata, List.append_assoc]
    rfl
  · rcases hvalue with ⟨-, hnull⟩ | hholds
    · rw [hnull]
      exact .null _
    · exact isReadable_of_holds hdepth hholds

/-- The data of a query, and what they hold, are looked up in the value of the whole. -/
theorem get?_of_query (hms : members.run body = .ok ms) {inner : List Member} {q : QueryData}
    (hinner : Holds ms "data" members inner) (hkind : Holds inner "resultType" text q.resultType)
    (hresult : Member.named "result" inner = [] ∧ q.result = .null ∨
      Holds inner "result" json q.result) {v : Json} (hv : Json.parse body = .ok v) :
    ∃ data, v.get? "data".toList = some data ∧
      data.get? "resultType".toList = some (.text q.resultType) ∧
      (data.get? "result".toList).getD .null = q.result := by
  obtain ⟨m, hm, hmembers⟩ := hinner
  obtain ⟨data, hdata, hget⟩ := (get?_of_run hms hv "data").2 m hm
  rw [Member.read, except_map_eq_ok] at hmembers hdata
  obtain ⟨⟨_, _⟩, hmembers, rfl⟩ := hmembers
  obtain ⟨⟨_, _⟩, hdata, rfl⟩ := hdata
  have hfields := get?_of_members hmembers hdata
  refine ⟨_, hget, ?_, ?_⟩
  · obtain ⟨m', hm', hread⟩ := hkind
    obtain ⟨j, hj, hget⟩ := (hfields "resultType").2 m' hm'
    rw [hget, eq_text_of_read hread hj]
  · rcases hresult with ⟨hnone, hnull⟩ | ⟨m', hm', hread⟩
    · rw [(hfields "result").1 hnone, hnull]
      rfl
    · obtain ⟨j, hj, hget⟩ := (hfields "result").2 m' hm'
      cases hread.symm.trans hj
      rw [hget]
      rfl

/-- **Data are shown as they came.**  An answer with any status whose body is an object, and an
envelope of success, makes a tool call that asks for everything show a warning, a heading, and a
text that is read as the value in the body: of the data, for the tools that show data, and of their
result, or `null` if they have none, for those that show the result of a query, if the data are an
object.  This holds for all values of which the binary64 numbers are read as they are written. -/
theorem data_are_shown_intact (hr : r ∈ sent c tool.name args server)
    (hanswer : server [r] = some (.replied status body)) (hunlimited : args.isUnlimited = true)
    (hobject : (Cursor.start body).StartsObject) :
    let result := ((dispatch c tool.name args).run server).result
    (tool ∈ Tool.showing → ∀ (e : Envelope Json) (d : Json), Envelope.read json body = .ok e →
      e.status = "success".toList → e.data = some d → (∀ x ∈ d.doubles, IsExact x) →
      ShowsInFull result (tool.heading args) d ∧
        ∃ ms, members.run body = .ok ms ∧ Holds ms "data" json d ∧
          ∀ v, Json.parse body = .ok v → v.get? "data".toList = some d) ∧
    (tool ∈ Tool.querying → ∀ (e : Envelope QueryData) (q : QueryData),
      Envelope.read Call.queryData body = .ok e → e.status = "success".toList → e.data = some q →
      (∀ x ∈ q.result.doubles, IsExact x) →
      ∃ ms m, members.run body = .ok ms ∧ Member.named "data" ms = [m] ∧
        (m.place.StartsObject → ShowsInFull result (queryHeading q.resultType) q.result ∧
          ∃ inner, m.read members = .ok inner ∧ Holds inner "resultType" text q.resultType ∧
            (Member.named "result" inner = [] ∧ q.result = .null ∨
              Holds inner "result" json q.result) ∧
            ∀ v, Json.parse body = .ok v → ∃ data, v.get? "data".toList = some data ∧
              data.get? "resultType".toList = some (.text q.resultType) ∧
              (data.get? "result".toList).getD .null = q.result)) := by
  constructor
  · intro htool e d hread hstatus hdata hexact
    obtain ⟨ms, hms⟩ := Envelope.exists_members_of_read keepsPace_json hobject hread
    obtain ⟨hholds, hshows⟩ :=
      shows_of_mem_showing hr hanswer hunlimited hms htool hread hstatus hdata hexact
    exact ⟨hshows, ms, hms, hholds, fun v hv => get?_of_holds hms hholds hv⟩
  · intro htool e q hread hstatus hdata hexact
    obtain ⟨ms, hms⟩ := Envelope.exists_members_of_read Call.keepsPace_queryData hobject hread
    obtain ⟨m, hm, hquery⟩ := holds_of_read Call.keepsPace_queryData hms hread hdata
    refine ⟨ms, m, hms, hm, fun hinside => ?_⟩
    have hmem : m ∈ Member.named "data" ms := hm ▸ List.mem_singleton_self m
    have hsteps := length_place_le_of_run hms m (List.mem_filter.mp hmem).1
    obtain ⟨inner, hread'⟩ := Call.exists_members_of_queryData hinside hsteps hquery
    have hinner : Holds ms "data" members inner := ⟨m, hm, hread'⟩
    obtain ⟨hkind, hvalue, hshows⟩ :=
      shows_of_mem_querying hr hanswer hunlimited hms htool hread hstatus hdata hinner hexact
    refine ⟨hshows, inner, hread', hkind, hvalue, fun v hv => ?_⟩
    exact get?_of_query hms hinner hkind hvalue hv

end Answers

/-- An answer with data of many kinds: one name comes twice, so that the later value counts. -/
def mixedBody : Text :=
  ("\x7b\"warnings\":[],\"data\":\x7b\"b\":[],\"a\":[\"\\u00e9\\n\",1.5,-2],\"b\":\x7b\x7d\x7d,"
    ++ "\"extra\":0,\"status\":\"success\"\x7d").toList

/-- An answer to a query. -/
def scalarBody : Text :=
  ("\x7b\"status\":\"success\",\"data\":\x7b\"resultType\":\"scalar\","
    ++ "\"result\":[1435781451.781,\"1\"]\x7d\x7d").toList

/-- A tool call that shows data of many kinds, and one that shows the result of a query. -/
theorem data_are_shown_intact_of_mixed :
    let rules := (dispatch addressedConfig Tool.getRules.name
      [("unlimited".toList, .bool true)]).run fun _ => some (.replied 200 mixedBody)
    let query := (dispatch addressedConfig Tool.executeQuery.name
      [("query".toList, .text "up".toList), ("unlimited".toList, .bool true)]).run
        fun _ => some (.replied 200 scalarBody)
    (∃ d, d.compact = "\x7b\"a\":[\"é\\n\",1.5,-2],\"b\":\x7b\x7d\x7d".toList ∧
      ShowsInFull rules.result "Prometheus Rules:\n".toList d) ∧
    ∃ result, result.compact = "[1435781451.781,\"1\"]".toList ∧
      ShowsInFull query.result (queryHeading "scalar".toList) result := by
  intro rules query
  constructor
  · have hobject : (Cursor.start mixedBody).StartsObject := ⟨_, rfl⟩
    have hsent : sent addressedConfig Tool.getRules.name [("unlimited".toList, .bool true)]
        (fun _ => some (.replied 200 mixedBody)) ≠ [] := by decide +kernel
    have hread : ((Envelope.read json mixedBody).toOption.bind fun e => e.data.map fun d =>
        (e.status, d.compact, decide (∀ x ∈ d.doubles, IsExact x))) = some ("success".toList,
          "\x7b\"a\":[\"é\\n\",1.5,-2],\"b\":\x7b\x7d\x7d".toList, true) := by decide +kernel
    cases he : Envelope.read json mixedBody with
    | error e =>
      rw [he] at hread
      cases hread
    | ok e =>
      rw [he] at hread
      obtain ⟨d, hdata, heq⟩ := Option.map_eq_some_iff.mp hread
      simp only [Prod.mk.injEq, decide_eq_true_iff] at heq
      obtain ⟨hstatus, hcompact, hexact⟩ := heq
      obtain ⟨r, hr⟩ := List.exists_mem_of_ne_nil _ hsent
      have hintact := (data_are_shown_intact hr rfl (by decide) hobject).1 (by decide) e d he
        hstatus hdata hexact
      exact ⟨d, hcompact, hintact.1⟩
  · have hobject : (Cursor.start scalarBody).StartsObject := ⟨_, rfl⟩
    have hsent : sent addressedConfig Tool.executeQuery.name
        [("query".toList, .text "up".toList), ("unlimited".toList, .bool true)]
        (fun _ => some (.replied 200 scalarBody)) ≠ [] := by decide +kernel
    have hread : ((Envelope.read Call.queryData scalarBody).toOption.bind fun e =>
        e.data.map fun q => (e.status, q.resultType, q.result.compact,
          decide (∀ x ∈ q.result.doubles, IsExact x))) = some ("success".toList, "scalar".toList,
            "[1435781451.781,\"1\"]".toList, true) := by decide +kernel
    let ms := (members.run scalarBody).toOption.getD []
    have hms : members.run scalarBody = .ok ms := by decide +kernel
    have hinside : ∀ m ∈ Member.named "data" ms, m.place.StartsObject := by
      have hhead : ∀ m ∈ Member.named "data" ms, m.place.skipSpaces.rest.head? = some '\x7b' := by
        decide +kernel
      intro m hm
      obtain ⟨rest, hrest⟩ := List.head?_eq_some_iff.mp (hhead m hm)
      exact ⟨rest, hrest⟩
    cases he : Envelope.read Call.queryData scalarBody with
    | error e =>
      rw [he] at hread
      cases hread
    | ok e =>
      rw [he] at hread
      obtain ⟨q, hdata, heq⟩ := Option.map_eq_some_iff.mp hread
      simp only [Prod.mk.injEq, decide_eq_true_iff] at heq
      obtain ⟨hstatus, hkind, hcompact, hexact⟩ := heq
      obtain ⟨r, hr⟩ := List.exists_mem_of_ne_nil _ hsent
      obtain ⟨ms', m, hms', hm, hintact⟩ :=
        (data_are_shown_intact hr rfl (by decide) hobject).2 (by decide) e q he hstatus hdata hexact
      cases hms.symm.trans hms'
      have hshows := (hintact (hinside m (hm ▸ List.mem_singleton_self m))).1
      rw [hkind] at hshows
      exact ⟨q.result, hcompact, hshows⟩

end MetricsBridge
