import MetricsBridge.Proofs.Server.Fidelity
import MetricsBridge.Proofs.Server.Presentation
import MetricsBridge.Proofs.Text.Occurrence

/-!
# Warnings behind a listing

Four tools list entries of an answer, and put the warnings that came with them behind the list.  The
text is limited after that.  So the warnings end what a tool call shows unless the text is cut, and
then they are what is cut off first (`warnings_end_the_listing`).
-/
namespace MetricsBridge

open Json Json.Decoder

namespace Render

/-- What stands behind a listing for the warnings of its answer. -/
def trailer (warnings : List Text) : Text :=
  "\nWarnings: ".toList ++ Text.joinWith "; ".toList warnings

end Render

namespace Envelope

/-- The warnings of an answer, if it is an envelope. -/
def warningsOf {α : Type} (shape : Json.Decoder α) (body : Text) : List Text :=
  ((read shape body).toOption.map Envelope.warnings).getD []

end Envelope

namespace Tool

/-- The tools that list entries of an answer. -/
def listings : List Tool :=
  [.listMetrics, .listLabelNames, .listLabelValues, .findSeries]

/-- The warnings of an answer to a tool that lists its entries. -/
def warnings (body : Text) : Tool → List Text
  | .listMetrics | .listLabelNames | .listLabelValues => Envelope.warningsOf (list text) body
  | .findSeries => Envelope.warningsOf (list Call.seriesLabels) body
  | _ => []

end Tool

/-! ### Texts -/

namespace Render

theorem withWarnings_of_ne {warnings : List Text} (h : warnings ≠ []) (t : Text) :
    withWarnings t warnings = t ++ trailer warnings := by
  rw [withWarnings, if_neg h, List.append_assoc]
  rfl

/-- A listing of one entry, with warnings. -/
theorem listing_of_one (title empty noun entry : Text) {warnings : List Text} (h : warnings ≠ []) :
    Job.listing title empty noun [entry] none warnings =
      "Found 1 ".toList ++ title ++ ":\n1. ".toList ++ entry ++ ('\n' :: trailer warnings) := by
  have hone : Text.ofNat 1 = ['1'] := rfl
  rw [Job.listing, withWarnings_of_ne h, if_neg (List.cons_ne_nil _ _), numberedList_none,
    numberedFrom, numberedFrom, List.length_singleton, hone]
  simp only [List.append_assoc, List.cons_append, List.nil_append]
  rfl

/-- The advice does not use the letter that the word for warnings starts with. -/
theorem notMem_truncationAdvice : 'W' ∉ truncationAdvice := by
  unfold truncationAdvice
  simp only [String.toList_append, List.mem_append, not_or]
  refine ⟨⟨⟨⟨⟨⟨⟨⟨⟨?_, ?_⟩, ?_⟩, ?_⟩, ?_⟩, ?_⟩, ?_⟩, ?_⟩, ?_⟩, ?_⟩ <;> decide +kernel

end Render

/-! ### Jobs -/

theorem warnings_of_hasShape {tool : Tool} {α : Type} {call : Except CallError (Call α)}
    {shape : Json.Decoder α} (h : HasShape call shape) {k : Call α} (hk : call = .ok k)
    (hwarnings : ∀ body, tool.warnings body = Envelope.warningsOf shape body) :
    (∀ body, tool.warnings body = Envelope.warningsOf k.shape body) ∧ k.shape.KeepsPace := by
  rw [h.shape_eq hk]
  exact ⟨hwarnings, h.keepsPace⟩

/-- **A tool that lists entries** shows its list with the warnings of the answer behind it. -/
theorem job_of_mem_listings {tool : Tool} {args : Arguments} {j : Job} {k : Call j.Data}
    (htool : tool ∈ Tool.listings) (hj : tool.job args = .ok j) (hk : j.call = .ok k) :
    ((∀ body, tool.warnings body = Envelope.warningsOf k.shape body) ∧ k.shape.KeepsPace) ∧
      ∀ reply, ∃ shown, j.render reply = Render.withWarnings shown reply.warnings := by
  simp only [Tool.listings, List.mem_cons, List.not_mem_nil, or_false] at htool
  rcases htool with rfl | rfl | rfl | rfl
  · rw [Tool.job, Except.ok.injEq] at hj
    subst hj
    exact ⟨warnings_of_hasShape (.metricNames _) hk fun _ => rfl, fun _ => ⟨_, rfl⟩⟩
  · rw [Tool.job, Except.ok.injEq] at hj
    subst hj
    exact ⟨warnings_of_hasShape (.labelNames _) hk fun _ => rfl, fun _ => ⟨_, rfl⟩⟩
  · simp only [Tool.job, except_map_eq_ok] at hj
    obtain ⟨label, -, rfl⟩ := hj
    exact ⟨warnings_of_hasShape (.labelValues label _) hk fun _ => rfl, fun _ => ⟨_, rfl⟩⟩
  · simp only [Tool.job, except_map_eq_ok] at hj
    obtain ⟨matchers, -, rfl⟩ := hj
    exact ⟨warnings_of_hasShape (.series _) hk fun _ => rfl, fun _ => ⟨_, rfl⟩⟩

/-! ### Answers -/

section Answers

variable {c : Config} {tool : Tool} {args : Arguments} {server : Backend} {body text : Text}

theorem Envelope.read_of_interpret {α : Type} {shape : Json.Decoder α} {status : Nat}
    {reply : Reply α} (h : Envelope.interpret shape status body = .ok reply) :
    ∃ e, Envelope.read shape body = .ok e ∧ e.warnings = reply.warnings := by
  unfold Envelope.interpret at h
  split at h
  · next e hread =>
    split_ifs at h
    split at h
    · cases h
      exact ⟨e, hread, rfl⟩
    · cases h
  · split_ifs at h

/-- The warnings of an object are the one member of that name, if there is one. -/
theorem holds_of_warningsOf {α : Type} {shape : Json.Decoder α} (hshape : shape.KeepsPace)
    {ms : List Member} (hms : members.run body = .ok ms) {e : Envelope α}
    (hread : Envelope.read shape body = .ok e) :
    Member.named "warnings" ms = [] ∧ Envelope.warningsOf shape body = [] ∨
      Holds ms "warnings" (list Decoder.text) (Envelope.warningsOf shape body) := by
  have hwarnings : Envelope.warningsOf shape body = e.warnings := by
    rw [Envelope.warningsOf, hread]
    rfl
  rw [hwarnings]
  obtain ⟨_, _, _, _, warnings, -, -, -, -, hfield, rfl⟩ :=
    (Envelope.read_eq_ok hshape hms).mp hread
  cases warnings with
  | none => exact .inl ⟨fieldAfter_eq_none.mp hfield, rfl⟩
  | some warnings => exact .inr (fieldAfter_eq_some.mp hfield)

/-- A tool call that goes well has had one answer, of which the tool has made a text. -/
theorem answered_of_result
    (h : ((dispatch c tool.name args).run server).result = some ⟨text, false⟩) :
    ∃ r status body j, ∃ k : Call j.Data, ∃ e : Envelope j.Data, ∃ d,
      ((dispatch c tool.name args).run server).exchanges = [⟨r, some (.replied status body)⟩] ∧
      tool.job args = .ok j ∧ j.call = .ok k ∧ Envelope.read k.shape body = .ok e ∧
      tool.text? args status body = some (j.render ⟨d, e.warnings⟩) ∧
      text = Render.limit (j.render ⟨d, e.warnings⟩) args.isUnlimited := by
  rw [dispatch, Plan.run_map] at h ⊢
  rcases execute_cases c tool.name args with ⟨e, hplan⟩ | ⟨_, j, k, r, hfind, hj, hk, hplan⟩
  · rw [hplan] at h
    cases h
  · rw [find?_name, Option.some.injEq] at hfind
    subst hfind
    rw [hplan, Plan.run_send_done] at h ⊢
    dsimp only at h ⊢
    obtain ⟨outcome, houtcome, hresult⟩ := Option.map_eq_some_iff.mp h
    obtain ⟨answer, hanswer, rfl⟩ := Option.map_eq_some_iff.mp houtcome
    unfold Job.outcome at hresult
    cases hreceive : Client.receive k.shape r answer with
    | error e =>
      rw [hreceive] at hresult
      cases hresult
    | ok reply =>
      rw [hreceive] at hresult
      cases hresult
      obtain ⟨status, body, rfl, hreply⟩ := receive_eq_ok hreceive
      obtain ⟨e, hread, hwarnings⟩ := Envelope.read_of_interpret hreply
      refine ⟨r, status, body, j, k, e, reply.data, ?_, hj, hk, hread, ?_, ?_⟩
      · rw [hanswer]
      · rw [hwarnings]
        exact text?_of_job hj hk hreply
      · rw [hwarnings]

/-- **Warnings end what a listing shows.**  A tool call that lists entries and goes well has had one
answer.  Behind the list that the tool makes of it stand its warnings, if there are any: on a line
of their own, and with semicolons between them.  They are shown if everything is asked for, and if
the list with the warnings has at most 50,000 bytes.  Otherwise what is shown is a start of it of at
most as many bytes, and the advice on how to get the rest. -/
theorem warnings_end_the_listing (htool : tool ∈ Tool.listings)
    (h : ((dispatch c tool.name args).run server).result = some ⟨text, false⟩) :
    ∃ r status body full,
      ((dispatch c tool.name args).run server).exchanges = [⟨r, some (.replied status body)⟩] ∧
      tool.text? args status body = some full ∧
      (∀ ms, members.run body = .ok ms →
        Member.named "warnings" ms = [] ∧ tool.warnings body = [] ∨
          Holds ms "warnings" (list Decoder.text) (tool.warnings body)) ∧
      (tool.warnings body ≠ [] → Render.trailer (tool.warnings body) <:+ full ∧
        (args.isUnlimited = true ∨ Text.byteLength full ≤ 50000 →
          Render.trailer (tool.warnings body) <:+ text)) ∧
      (args.isUnlimited = false → 50000 < Text.byteLength full → ∃ kept,
        text = kept ++ Render.truncationAdvice ∧ kept <+: full ∧ Text.byteLength kept ≤ 50000) := by
  obtain ⟨r, status, body, j, k, e, d, hexchanges, hj, hk, hread, htext, rfl⟩ :=
    answered_of_result h
  obtain ⟨⟨hwarnings, hshape⟩, hrender⟩ := job_of_mem_listings htool hj hk
  obtain ⟨shown, hshown⟩ := hrender ⟨d, e.warnings⟩
  have hsame : tool.warnings body = e.warnings := by
    rw [hwarnings, Envelope.warningsOf, hread]
    rfl
  refine ⟨r, status, body, j.render ⟨d, e.warnings⟩, hexchanges, htext, ?_, ?_, ?_⟩
  · intro ms hms
    rw [hwarnings]
    exact holds_of_warningsOf hshape hms hread
  · intro hne
    rw [hsame] at hne ⊢
    have hends : Render.trailer e.warnings <:+ j.render ⟨d, e.warnings⟩ := by
      rw [hshown, Render.withWarnings_of_ne hne]
      exact List.suffix_append shown _
    exact ⟨hends, fun hwhole => hends.trans (Render.suffix_limit hwhole)⟩
  · intro hlimited hlong
    rw [hlimited]
    exact ⟨_, Render.limit_of_long hlong, Render.cut_prefix _, Render.byteLength_cut_le _⟩

/-- What a tool call shows of an answer with the name of one label, and warnings. -/
theorem result_of_one_name {r : Request} {status : Nat} {name : Text} {e : Envelope (List Text)}
    (hr : r ∈ sent c Tool.listLabelNames.name args server)
    (hanswer : server [r] = some (.replied status body))
    (hread : Envelope.read (list Decoder.text) body = .ok e)
    (hstatus : e.status = "success".toList) (hdata : e.data = some [name]) (hne : e.warnings ≠ []) :
    ((dispatch c Tool.listLabelNames.name args).run server).result = some
      ⟨Render.limit ("Found 1 label names:\n1. ".toList ++ name ++
        ('\n' :: Render.trailer e.warnings)) args.isUnlimited, false⟩ := by
  obtain ⟨j, k, hj, hk, hresult⟩ := result_of_sent hr hanswer
  rw [Tool.job, Except.ok.injEq] at hj
  subst hj
  have hshape := (HasShape.labelNames _).shape_eq hk
  have hread' : Envelope.read k.shape body = .ok e := hshape ▸ hread
  have hlisting := Render.listing_of_one "label names".toList "No label names found".toList
    "label names".toList name hne
  rw [hresult, outcome_of_success hread' hstatus hdata]
  exact congrArg (fun t => some (ToolResult.mk (Render.limit t args.isUnlimited) false)) hlisting

end Answers

/-- An answer with two warnings. -/
def warnedBody : Text :=
  ("\x7b\"status\":\"success\",\"data\":[\"up\"],"
    ++ "\"warnings\":[\"partial response\",\"slow\"]\x7d").toList

/-- A short listing with its warnings. -/
theorem warnings_end_the_listing_of_two : ∃ text,
    ((dispatch addressedConfig Tool.listMetrics.name []).run
      fun _ => some (.replied 200 warnedBody)).result = some ⟨text, false⟩ ∧
    "\nWarnings: partial response; slow".toList <:+ text := by
  have hresult : ((dispatch addressedConfig Tool.listMetrics.name []).run
      fun _ => some (.replied 200 warnedBody)).result = some
        ⟨"Found 1 metrics:\n1. up\n\nWarnings: partial response; slow".toList, false⟩ := by
    decide +kernel
  refine ⟨_, hresult, ?_⟩
  obtain ⟨r, status, body, full, hexchanges, hfull, -, hwarnings, -⟩ :=
    warnings_end_the_listing (by decide) hresult
  have hanswers : ((dispatch addressedConfig Tool.listMetrics.name []).run
      fun _ => some (.replied 200 warnedBody)).exchanges.map Exchange.answer =
        [some (.replied 200 warnedBody)] := by decide +kernel
  rw [hexchanges] at hanswers
  cases hanswers
  have htwo : Tool.listMetrics.warnings warnedBody =
      ["partial response".toList, "slow".toList] := by
    decide +kernel
  have hshort : (Tool.listMetrics.text? [] 200 warnedBody).map Text.byteLength = some 56 := by
    decide +kernel
  rw [hfull, Option.map_some, Option.some.injEq] at hshort
  rw [htwo] at hwarnings
  exact (hwarnings (by decide)).2 (.inr (by omega))

/-- The name of a label, in 50,004 bytes. -/
def longName : Text :=
  List.replicate 12501 '𐀀'

theorem byteLength_longName : Text.byteLength longName = 50004 :=
  Text.byteLength_replicate 12501 '𐀀'

/-- An answer with the name, and a warning. -/
def longNameBody : Text :=
  "\x7b\"status\":\"success\",\"data\":[\"".toList ++ longName
    ++ "\"],\"warnings\":[\"slow\"]\x7d".toList

theorem read_longNameBody : ∃ e, Envelope.read (list text) longNameBody = .ok e ∧
    e.status = "success".toList ∧ e.warnings = ["slow".toList] ∧ e.data = some [longName] := by
  have hread : ((Envelope.read (list text) longNameBody).toOption.any fun e =>
      e.status == "success".toList && e.warnings == ["slow".toList] &&
        e.data == some [longName]) = true := by decide +kernel
  cases he : Envelope.read (list text) longNameBody with
  | error e =>
    rw [he] at hread
    cases hread
  | ok e =>
    rw [he, Except.toOption, Option.any_some] at hread
    simp only [Bool.and_eq_true, beq_iff_eq, and_assoc] at hread
    exact ⟨e, rfl, hread⟩

/-- **A long name cuts off the warnings.**  The answer has a warning, and nowhere in what is shown
of it do warnings stand. -/
theorem warning_lost_behind_long_name : ∃ text,
    ((dispatch addressedConfig Tool.listLabelNames.name []).run
      fun _ => some (.replied 200 longNameBody)).result = some ⟨text, false⟩ ∧
    Tool.listLabelNames ∈ Tool.listings ∧
    Tool.listLabelNames.warnings longNameBody = ["slow".toList] ∧
    ¬ Render.trailer ["slow".toList] <:+: text := by
  obtain ⟨e, hread, hstatus, hwarnings, hdata⟩ := read_longNameBody
  have hlost : Tool.listLabelNames.warnings longNameBody = ["slow".toList] := by
    rw [Tool.warnings, Envelope.warningsOf, hread]
    exact hwarnings
  have hsent : sent addressedConfig Tool.listLabelNames.name []
      (fun _ => some (.replied 200 longNameBody)) ≠ [] := by decide +kernel
  obtain ⟨r, hr⟩ := List.exists_mem_of_ne_nil _ hsent
  have hresult := result_of_one_name hr rfl hread hstatus hdata (by simp [hwarnings])
  -- the name alone fills what is shown, and neither it nor what stands in front of it has the
  -- letter that the word for warnings starts with
  have hfree : 'W' ∉ "Found 1 label names:\n1. ".toList ++ longName := by
    rw [List.mem_append, not_or]
    exact ⟨by decide, fun hmem => absurd (List.eq_of_mem_replicate hmem) (by decide)⟩
  have hlong : 50000 ≤ Text.byteLength ("Found 1 label names:\n1. ".toList ++ longName) := by
    rw [Text.byteLength_append, byteLength_longName]
    omega
  obtain ⟨kept, hlimit, hkept⟩ := Render.limit_of_full hlong
    (by decide : 0 < Text.byteLength ('\n' :: Render.trailer ["slow".toList]))
  rw [hwarnings] at hresult
  refine ⟨kept ++ Render.truncationAdvice, ?_, by decide, hlost, ?_⟩
  · rw [hresult]
    have hlimited : Arguments.isUnlimited [] = false := rfl
    rw [hlimited, hlimit]
  · intro hmem
    have hword : 'W' ∈ Render.trailer ["slow".toList] := List.mem_append_left _ (by decide)
    rcases List.mem_append.mp (hmem.mem hword) with hin | hin
    · exact hfree (hkept.mem hin)
    · exact Render.notMem_truncationAdvice hin

end MetricsBridge
