import MetricsBridge.Proofs.Server.Parameters
import MetricsBridge.Proofs.Server.Truncation

/-!
# Asking for everything

A tool call that asks for everything and the same call that does not are one call, presented in two
ways.  They make the same plan but for what becomes of a good answer (`execute_of_agreeExcept`): a
tool that lists entries leaves some out where not everything is asked for (`shortens_listing`), and
what is then too long is cut (`byteLength_limit_le`).  `unlimited_is_presentation` puts the two
together.
-/
namespace MetricsBridge

namespace Render

/-- The line that stands for entries which are left out. -/
def moreLine (left : Nat) (noun : Text) : Text :=
  if left = 0 then []
  else "... and ".toList ++ Text.ofNat left ++ " more ".toList ++ noun ++ ['\n']

/-- The short text is the full one, except that the entries behind the first `cap` are replaced by a
line with their number, if there are any. -/
def Shortens (entries : List Text) (cap : Nat) (noun full short : Text) : Prop :=
  ∃ front back,
    full = front ++ numberedFrom 1 (entries.take cap)
      ++ numberedFrom (cap + 1) (entries.drop cap) ++ back ∧
    short = front ++ numberedFrom 1 (entries.take cap)
      ++ moreLine (entries.length - cap) noun ++ back

end Render

namespace Tool

/-- The entries that a tool lists of an answer. -/
def entries (status : Nat) (body : Text) : Tool → List Text
  | .listMetrics | .listLabelValues =>
    match Envelope.interpret (Json.Decoder.list Json.Decoder.text) status body with
    | .ok reply => reply.data
    | .error _ => []
  | .findSeries =>
    match Envelope.interpret (Json.Decoder.list Call.seriesLabels) status body with
    | .ok reply => reply.data.map Render.series
    | .error _ => []
  | _ => []

/-- The text that a tool makes of an answer, before it is limited. -/
def text? (t : Tool) (args : Arguments) (status : Nat) (body : Text) : Option Text :=
  (t.job args).toOption.bind fun j => j.call.toOption.bind fun k =>
    (Envelope.interpret k.shape status body).toOption.map j.render

/-- How the text of an answer differs where not everything is asked for: not at all, or by the
entries that a listing leaves out. -/
def Abridges (t : Tool) (status : Nat) (body full short : Text) : Prop :=
  match t.cap? with
  | none => short = full
  | some (cap, noun) => Render.Shortens (t.entries status body) cap noun full short

/-- What is made of an answer with two tables of arguments: the same error, or the texts of the
tool, the second abridged. -/
def Presents (t : Tool) (a b : Arguments) (answer : Answer)
    (full short : Except ToolError Text) : Prop :=
  (∃ e, full = .error e ∧ short = .error e) ∨
    ∃ status body text text', answer = .replied status body ∧
      t.text? a status body = some text ∧ t.text? b status body = some text' ∧
      t.Abridges status body text text' ∧ full = .ok text ∧ short = .ok text'

end Tool

/-! ## Texts -/

namespace Render

theorem numberedFrom_append (first : Nat) (items more : List Text) :
    numberedFrom first (items ++ more) =
      numberedFrom first items ++ numberedFrom (first + items.length) more := by
  induction items generalizing first with
  | nil => rfl
  | cons item items ih =>
    have hcount : first + 1 + items.length = first + (item :: items).length := by
      rw [List.length_cons]
      omega
    rw [List.cons_append, numberedFrom, ih, hcount, numberedFrom, ← List.cons_append,
      ← List.append_assoc]

/-- The numbers go on behind the first entries. -/
theorem numberedFrom_take_drop (items : List Text) (cap : Nat) : numberedFrom 1 items =
    numberedFrom 1 (items.take cap) ++ numberedFrom (cap + 1) (items.drop cap) := by
  rcases Nat.le_total items.length cap with h | h
  · rw [List.take_of_length_le h, List.drop_eq_nil_of_le h]
    exact (List.append_nil _).symm
  · have happend := numberedFrom_append 1 (items.take cap) (items.drop cap)
    rw [List.take_append_drop, List.length_take_of_le h, Nat.add_comm 1] at happend
    exact happend

theorem numberedList_none (items : List Text) (noun : Text) :
    numberedList items none noun = numberedFrom 1 items := by
  simp [numberedList]

theorem numberedList_some (items : List Text) (cap : Nat) (noun : Text) :
    numberedList items (some cap) noun =
      numberedFrom 1 (items.take cap) ++ moreLine (items.length - cap) noun := by
  have hleft : items.length - (items.take cap).length = items.length - cap := by
    rw [List.length_take]
    omega
  rw [numberedList, hleft, moreLine]

/-- **A listing with a cap** is shortened by the entries behind it. -/
theorem shortens_listing (title empty noun : Text) (items : List Text) (cap : Nat)
    (warnings : List Text) : Shortens items cap noun
      (Job.listing title empty noun items none warnings)
      (Job.listing title empty noun items (some cap) warnings) := by
  -- The warnings, if there are any, stand behind the list.
  obtain ⟨trailer, htrailer⟩ : ∃ trailer, ∀ t, withWarnings t warnings = t ++ trailer := by
    unfold withWarnings
    split_ifs
    · exact ⟨[], fun t => (List.append_nil t).symm⟩
    · exact ⟨_, fun t => List.append_assoc _ _ _⟩
  by_cases hitems : items = []
  · subst hitems
    refine ⟨empty, trailer, ?_, ?_⟩
    · rw [Job.listing, htrailer]
      simp [numberedFrom]
    · rw [Job.listing, htrailer]
      simp [numberedFrom, moreLine]
  · refine ⟨"Found ".toList ++ Text.ofNat items.length ++ ' ' :: title ++ ":\n".toList, trailer,
      ?_, ?_⟩
    · rw [Job.listing, htrailer, if_neg hitems, numberedList_none, numberedFrom_take_drop items cap,
        ← List.append_assoc]
    · rw [Job.listing, htrailer, if_neg hitems, numberedList_some, ← List.append_assoc]

end Render

/-! ## Jobs -/

section Jobs

variable {a b : Arguments} {t : Tool} {status : Nat} {body : Text}

/-- The names of the arguments that ask for everything, of which there is one. -/
def unlimitedNames : List Text :=
  ["unlimited".toList]

theorem selectorOptions_congr (h : AgreeExcept unlimitedNames a b) :
    a.selectorOptions = b.selectorOptions := by
  simp only [Arguments.selectorOptions, optionalText_congr (h "start_time".toList (by decide)),
    optionalText_congr (h "end_time".toList (by decide)),
    texts_congr (h "matches".toList (by decide)),
    optionalText_congr (h "limit".toList (by decide))]

/-- That everything may be asked for is no parameter of any one tool. -/
theorem not_mem_unlimitedNames (t : Tool) : ∀ n ∈ t.ownNames, n ∉ unlimitedNames := by
  cases t <;> decide

theorem shape_of_labelValues {label : Text} {options : SelectorOptions} {k : Call (List Text)}
    (h : Call.labelValues label options = .ok k) :
    k.shape = Json.Decoder.list Json.Decoder.text := by
  simp only [Call.labelValues, bind_eq_ok, pure_eq_ok] at h
  obtain ⟨pairs, -, rfl⟩ := h
  rfl

theorem shape_of_series {options : SelectorOptions} {k : Call (List Labels)}
    (h : Call.series options = .ok k) : k.shape = Json.Decoder.list Call.seriesLabels := by
  simp only [Call.series, bind_eq_ok, pure_eq_ok] at h
  obtain ⟨pairs, -, rfl⟩ := h
  rfl

/-- A job of a tool and one that differs from it only in how it abridges the reply. -/
def Tool.AbridgesJob (t : Tool) (j j' : Job) : Prop :=
  ∃ render, j' = { j with render } ∧ ∀ k status body reply, j.call = .ok k →
    Envelope.interpret k.shape status body = .ok reply →
    t.Abridges status body (j.render reply) (render reply)

theorem Tool.AbridgesJob.refl (hcap : t.cap? = none) (j : Job) : t.AbridgesJob j j := by
  refine ⟨j.render, rfl, fun k status body reply _ _ => ?_⟩
  rw [Tool.Abridges, hcap]

theorem abridgesJob_listingTexts {cap : Nat} {noun : Text} (hcap : t.cap? = some (cap, noun))
    (hentries : ∀ status body reply,
      Envelope.interpret (Json.Decoder.list Json.Decoder.text) status body = .ok reply →
      t.entries status body = reply.data)
    (action title empty label : Text) (options : SelectorOptions) :
    t.AbridgesJob
      (Job.listingTexts action title empty noun none (Call.labelValues label options))
      (Job.listingTexts action title empty noun (some cap) (Call.labelValues label options)) := by
  refine ⟨_, rfl, fun k status body reply hk hreply => ?_⟩
  rw [shape_of_labelValues hk] at hreply
  rw [Tool.Abridges, hcap]
  dsimp only
  rw [hentries status body reply hreply]
  exact Render.shortens_listing title empty noun reply.data cap reply.warnings

theorem entries_of_series {reply : Reply (List Labels)}
    (h : Envelope.interpret (Json.Decoder.list Call.seriesLabels) status body = .ok reply) :
    Tool.findSeries.entries status body = reply.data.map Render.series := by
  rw [Tool.entries, h]

theorem abridgesJob_listingSeries (options : SelectorOptions) :
    Tool.findSeries.AbridgesJob (Job.listingSeries none (Call.series options))
      (Job.listingSeries (some Job.seriesCap) (Call.series options)) := by
  refine ⟨_, rfl, fun k status body reply hk hreply => ?_⟩
  rw [shape_of_series hk] at hreply
  dsimp only [Tool.Abridges, Tool.cap?]
  rw [entries_of_series hreply]
  exact Render.shortens_listing _ _ _ _ _ reply.warnings

/-- **Asking for everything changes a job only in how it abridges the reply.** -/
theorem job_of_agreeExcept (h : AgreeExcept unlimitedNames a b) (ha : a.isUnlimited = true)
    (hb : b.isUnlimited = false) (t : Tool) :
    (∃ e, t.job a = .error e ∧ t.job b = .error e) ∨
    ∃ j j', t.job a = .ok j ∧ t.job b = .ok j' ∧ t.AbridgesJob j j' := by
  have hoptions := selectorOptions_congr h
  cases hcap : t.cap? with
  | none =>
    have hl : limitPair a = limitPair b := limitPair_congr (h _ (by decide))
    have hjob : t.job a = t.job b :=
      job_congr (h.agreeOn (not_mem_unlimitedNames t)) (fun hne => absurd hcap hne) fun _ => hl
    cases hj : t.job a with
    | error e => exact .inl ⟨e, rfl, hjob ▸ hj⟩
    | ok j => exact .inr ⟨j, j, rfl, hjob ▸ hj, .refl hcap j⟩
  | some cap =>
    cases t with
    | listMetrics =>
      right
      rw [Tool.job, Tool.job, ha, hb, hoptions]
      refine ⟨_, _, rfl, rfl,
        abridgesJob_listingTexts rfl (fun status body reply hr => ?_) _ _ _ _ _⟩
      rw [Tool.entries, hr]
    | listLabelValues =>
      have hlabel : a.requireText "label" = b.requireText "label" :=
        requireText_congr (h _ (by decide))
      rw [Tool.job, Tool.job, ha, hb, hoptions, hlabel]
      cases b.requireText "label" with
      | error e => exact .inl ⟨e, rfl, rfl⟩
      | ok label =>
        refine .inr ⟨_, _, rfl, rfl, abridgesJob_listingTexts rfl (fun status body reply hr => ?_)
          _ _ _ _ _⟩
        rw [Tool.entries, hr]
    | findSeries =>
      have hmatches : a.requireTexts "matches" = b.requireTexts "matches" :=
        requireTexts_congr (h _ (by decide))
      rw [Tool.job, Tool.job, ha, hb, hoptions, hmatches]
      cases b.requireTexts "matches" with
      | error e => exact .inl ⟨e, rfl, rfl⟩
      | ok matchers => exact .inr ⟨_, _, rfl, rfl, abridgesJob_listingSeries _⟩
    | _ => cases hcap

end Jobs

/-! ## Tool calls -/

/-- Only an answer that has come can be good. -/
theorem receive_eq_ok {α : Type} {shape : Json.Decoder α} {r : Request} {answer : Answer}
    {reply : Reply α} (h : Client.receive shape r answer = .ok reply) :
    ∃ status body, answer = .replied status body ∧
      Envelope.interpret shape status body = .ok reply := by
  cases answer with
  | replied status body => exact ⟨status, body, rfl, h⟩
  | unreachable | dropped | cutShort => cases h

section Calls

variable {a b : Arguments} {t : Tool}

theorem text?_of_job {args : Arguments} {j : Job} (hj : t.job args = .ok j) {k : Call j.Data}
    (hk : j.call = .ok k) {status : Nat} {body : Text} {reply : Reply j.Data}
    (hreply : Envelope.interpret k.shape status body = .ok reply) :
    t.text? args status body = some (j.render reply) := by
  rw [Tool.text?, hj, Except.toOption, Option.bind_some, hk, Except.toOption, Option.bind_some,
    hreply]
  rfl

/-- What two jobs make of an answer is presented in two ways if the second abridges the first. -/
theorem presents_outcome {j : Job} {render : Reply j.Data → Text} (hja : t.job a = .ok j)
    (hjb : t.job b = .ok { j with render }) {k : Call j.Data} (hk : j.call = .ok k)
    (habridges : ∀ status body reply, Envelope.interpret k.shape status body = .ok reply →
      t.Abridges status body (j.render reply) (render reply)) (r : Request) (answer : Answer) :
    t.Presents a b answer (j.outcome k r answer) (Job.outcome { j with render } k r answer) := by
  unfold Job.outcome
  cases hreceive : Client.receive k.shape r answer with
  | error e => exact .inl ⟨.failed j.action e, rfl, rfl⟩
  | ok reply =>
    obtain ⟨status, body, rfl, hreply⟩ := receive_eq_ok hreceive
    exact .inr ⟨status, body, _, _, rfl, text?_of_job hja hk hreply, text?_of_job hjb hk hreply,
      habridges status body reply hreply, rfl, rfl⟩

/-- **A tool with two tables of arguments** that differ in whether everything is asked for makes the
same request, if any, and presents what becomes of it in two ways. -/
theorem perform_of_agreeExcept (h : AgreeExcept unlimitedNames a b) (ha : a.isUnlimited = true)
    (hb : b.isUnlimited = false) (t : Tool) (client : Client) :
    (∃ e, t.perform client a = .done (.error e) ∧ t.perform client b = .done (.error e)) ∨
    ∃ (r : Request) (f g : Answer → Except ToolError Text),
      t.perform client a = .send r (fun answer => .done (f answer)) ∧
      t.perform client b = .send r (fun answer => .done (g answer)) ∧
      ∀ answer, t.Presents a b answer (f answer) (g answer) := by
  unfold Tool.perform
  rcases job_of_agreeExcept h ha hb t with ⟨e, hja, hjb⟩ | ⟨j, _, hja, hjb, render, rfl, habridges⟩
  · rw [hja, hjb]
    exact .inl ⟨_, rfl, rfl⟩
  · rw [hja, hjb]
    dsimp only
    obtain ⟨Data, action, call, render'⟩ := j
    cases call with
    | error e => exact .inl ⟨_, perform_of_bad_call rfl, perform_of_bad_call rfl⟩
    | ok k =>
      cases hr : client.request k with
      | error fault =>
        exact .inl ⟨_, perform_of_bad_request rfl hr, perform_of_bad_request rfl hr⟩
      | ok r =>
        exact .inr ⟨r, _, _, perform_of_request rfl hr, perform_of_request rfl hr,
          presents_outcome hja hjb rfl
            (fun status body reply => habridges k status body reply rfl) r⟩

/-- **A tool call** that asks for everything and the one that does not either stop with the same
error at once, or make the same request. -/
theorem execute_of_agreeExcept (h : AgreeExcept unlimitedNames a b) (ha : a.isUnlimited = true)
    (hb : b.isUnlimited = false) (c : Config) (name : Text) :
    (∃ e, execute c name a = .done (.error e) ∧ execute c name b = .done (.error e)) ∨
    ∃ (tool : Tool) (r : Request) (f g : Answer → Except ToolError Text),
      Tool.find? name = some tool ∧
      execute c name a =
        .send r (fun answer => .done ((f answer).map fun text => Render.limit text true)) ∧
      execute c name b =
        .send r (fun answer => .done ((g answer).map fun text => Render.limit text false)) ∧
      ∀ answer, tool.Presents a b answer (f answer) (g answer) := by
  have hurl : a.url = b.url := optionalText_congr (h _ (by decide))
  have horg : a.orgId = b.orgId := optionalText_congr (h _ (by decide))
  unfold execute
  rw [hurl, horg, ha, hb]
  cases Tool.find? name with
  | none => exact .inl ⟨_, rfl, rfl⟩
  | some tool =>
    dsimp only
    split_ifs
    · exact .inl ⟨_, rfl, rfl⟩
    · cases Client.forCall (some Program.agent) c.connection b.url b.orgId with
      | error e => exact .inl ⟨_, rfl, rfl⟩
      | ok client =>
        dsimp only
        rcases perform_of_agreeExcept h ha hb tool client with
          ⟨e, hpa, hpb⟩ | ⟨r, f, g, hpa, hpb, hpresents⟩
        · rw [hpa, hpb]
          exact .inl ⟨e, rfl, rfl⟩
        · rw [hpa, hpb]
          exact .inr ⟨tool, r, f, g, rfl, rfl, rfl, hpresents⟩

/-- **Asking for everything changes only the presentation.**  A tool call that asks for everything
and the same call that does not send the same, whatever the server does, and either the answer to
both stays out, or both end with the same error, or both have a good answer.  Then the first shows
the whole text that the tool makes of the answer, with a warning; the second shows the text with the
cap of the tool, if it has one, cut if it is long. -/
theorem unlimited_is_presentation (h : AgreeExcept unlimitedNames a b) (ha : a.isUnlimited = true)
    (hb : b.isUnlimited = false) (c : Config) (name : Text) (server : Backend) :
    let full := (dispatch c name a).run server
    let short := (dispatch c name b).run server
    full.exchanges = short.exchanges ∧
    ((∃ r, full.exchanges = [⟨r, none⟩] ∧ full.result = none ∧ short.result = none) ∨
      (∃ text, full.result = some ⟨text, true⟩ ∧ short.result = some ⟨text, true⟩) ∨
      ∃ tool r status body text text', Tool.find? name = some tool ∧
        full.exchanges = [⟨r, some (.replied status body)⟩] ∧
        tool.text? a status body = some text ∧ tool.text? b status body = some text' ∧
        tool.Abridges status body text text' ∧
        full.result = some ⟨Render.unlimitedWarning ++ text, false⟩ ∧
        short.result = some ⟨Render.limit text' false, false⟩ ∧
        Text.byteLength (Render.limit text' false) ≤
          50000 + Text.byteLength Render.truncationAdvice) := by
  dsimp only
  rw [dispatch, dispatch, Plan.run_map, Plan.run_map]
  rcases execute_of_agreeExcept h ha hb c name with
    ⟨e, hea, heb⟩ | ⟨tool, r, f, g, hfind, hea, heb, hpresents⟩
  · rw [hea, heb]
    exact ⟨rfl, .inr (.inl ⟨Redaction.redact e.message, rfl, rfl⟩)⟩
  · rw [hea, heb, Plan.run_send_done, Plan.run_send_done]
    refine ⟨rfl, ?_⟩
    cases hanswer : server [r] with
    | none => exact .inl ⟨r, rfl, rfl, rfl⟩
    | some answer =>
      right
      rcases hpresents answer with
        ⟨e, hf, hg⟩ | ⟨status, body, text, text', rfl, hta, htb, habridges, hf, hg⟩
      · left
        simp only [Option.map_some, hf, hg]
        exact ⟨Redaction.redact e.message, rfl, rfl⟩
      · right
        have hbound := Render.byteLength_limit_le text'
        rw [Render.maxBytes] at hbound
        simp only [Option.map_some, hf, hg]
        exact ⟨tool, r, status, body, text, text', hfind, rfl, hta, htb, habridges, rfl, rfl,
          hbound⟩

/-- Three tools have a cap. -/
example : Tool.all.filterMap Tool.cap? =
    [(100, "metrics".toList), (100, "values".toList), (50, "series".toList)] := by decide

end Calls

/-- More metrics than are listed unless everything is asked for. -/
def manyMetrics : List Text :=
  List.replicate 101 ['m']

/-- An answer with many metrics. -/
def manyMetricsBody : Text :=
  "\x7b\"status\":\"success\",\"data\":".toList
    ++ (Json.array (manyMetrics.map .text)).compact ++ "\x7d".toList

/-- A listing of many metrics in full, and one that leaves out the last of them. -/
theorem unlimited_is_presentation_of_many :
    let server : Backend := fun _ => some (.replied 200 manyMetricsBody)
    let full := (dispatch addressedConfig Tool.listMetrics.name
      [("unlimited".toList, .bool true)]).run server
    let short := (dispatch addressedConfig Tool.listMetrics.name []).run server
    full.exchanges = short.exchanges ∧ ∃ text text',
      Render.Shortens manyMetrics 100 "metrics".toList text text' ∧
      full.result = some ⟨Render.unlimitedWarning ++ text, false⟩ ∧
      short.result = some ⟨Render.limit text' false, false⟩ := by
  intro server full short
  have h : AgreeExcept unlimitedNames [("unlimited".toList, .bool true)] [] := by
    intro n hn
    rw [unlimitedNames, List.mem_singleton] at hn
    rw [Table.get?, List.lookup_cons, beq_false_of_ne hn]
    rfl
  have hgood : full.result.map ToolResult.isError = some false := by decide +kernel
  have hanswers : full.exchanges.map Exchange.answer = [some (.replied 200 manyMetricsBody)] := by
    decide +kernel
  have hentries : Tool.listMetrics.entries 200 manyMetricsBody = manyMetrics := by decide +kernel
  obtain ⟨hexchanges, hresults⟩ := unlimited_is_presentation h (by decide) (by decide)
    addressedConfig Tool.listMetrics.name server
  refine ⟨hexchanges, ?_⟩
  rcases hresults with ⟨r, -, hfull, -⟩ | ⟨text, hfull, -⟩ |
    ⟨tool, r, status, body, text, text', hfind, hfull, -, -, habridges, hresult, hresult', -⟩
  · rw [hfull] at hgood
    cases hgood
  · rw [hfull] at hgood
    cases hgood
  · rw [find?_name, Option.some.injEq] at hfind
    subst hfind
    rw [hfull] at hanswers
    cases hanswers
    rw [Tool.Abridges, Tool.cap?] at habridges
    rw [hentries] at habridges
    exact ⟨text, text', habridges, hresult, hresult'⟩

end MetricsBridge
