import MetricsBridge.Proofs.Server.Credentials

/-!
# Secrets are not shown

Two configurations that differ only in what their username, their password and their token are make
the same plans but for the headers that prove who asks (`execute_alike`).  Plans that are alike so
end with the same result when they get the same answers (`Plan.Alike.run`), and so nothing that is
shown depends on a secret (`secrets_are_not_shown`).
-/
namespace MetricsBridge

/-! ## Definitions -/

/-- A request without the headers that prove who asks. -/
def Request.anonymous (r : Request) : Request :=
  { r with headers := r.headers.filter fun h => h.name ≠ Header.authorization }

/-- Plans that send the same but for who asks, and make the same of the same answers. -/
inductive Plan.Alike {α : Type} : Plan α → Plan α → Prop
  | done (a : α) : Plan.Alike (.done a) (.done a)
  | send {r₁ r₂ : Request} {next₁ next₂ : Answer → Plan α} (hr : r₁.anonymous = r₂.anonymous)
      (hnext : ∀ answer, Plan.Alike (next₁ answer) (next₂ answer)) :
      Plan.Alike (.send r₁ next₁) (.send r₂ next₂)

/-- The requests of two runs have got the same answers, as far as both runs go. -/
def Outcome.SameAnswers {α : Type} (o₁ o₂ : Outcome α) : Prop :=
  ∀ e ∈ o₁.exchanges.zip o₂.exchanges, e.1.answer = e.2.answer

/-- Connections that differ at most in what their username, password and token are. -/
structure Connection.SameButSecrets (a b : Connection) : Prop where
  url : a.url = b.url
  orgId : a.orgId = b.orgId
  username : a.username.isSome = b.username.isSome
  password : a.password.isSome = b.password.isSome
  token : a.token.isSome = b.token.isSome

/-- The token of a connection, if it has one, can be sent. -/
def Connection.HasLegalToken (c : Connection) : Prop :=
  ∀ token, c.token = some token → (Header.bearer token).isLegal = true

/-- Configurations that differ at most in what their username, password and token are. -/
structure Config.SameButSecrets (a b : Config) : Prop where
  version : a.version = b.version
  preset : a.preset = b.preset
  connection : a.connection.SameButSecrets b.connection
  overrides : a.overrides = b.overrides
  categories : a.categories = b.categories

/-- Clients that differ at most in the secrets of their connections, whose tokens can be sent. -/
structure Client.SameButSecrets (a b : Client) : Prop where
  base : a.base = b.base
  connection : a.connection.SameButSecrets b.connection
  agent : a.agent = b.agent
  legal₁ : a.connection.HasLegalToken
  legal₂ : b.connection.HasLegalToken

/-! ## Plans -/

namespace Plan.Alike

variable {α β : Type} {p q : Plan α}

theorem map (f : α → β) (h : Alike p q) : Alike (p.map f) (q.map f) := by
  induction h with
  | done a => exact .done (f a)
  | send hr _ ih => exact .send hr ih

theorem runAfter (h : Alike p q) {server₁ server₂ : Backend} {past₁ past₂ : List Request}
    (hs : (p.runAfter server₁ past₁).SameAnswers (q.runAfter server₂ past₂)) :
    (p.runAfter server₁ past₁).result = (q.runAfter server₂ past₂).result ∧
    (p.runAfter server₁ past₁).requests.map Request.anonymous =
      (q.runAfter server₂ past₂).requests.map Request.anonymous := by
  induction h generalizing past₁ past₂ with
  | done a => exact ⟨rfl, rfl⟩
  | @send r₁ r₂ next₁ next₂ hr _ ih =>
    simp only [Plan.runAfter] at hs ⊢
    -- The first answers are the same, be it that there is one or that there is none.
    cases h₁ : server₁ (past₁ ++ [r₁]) with
    | none =>
      cases h₂ : server₂ (past₂ ++ [r₂]) with
      | none => simp [Outcome.requests, hr]
      | some answer => simp [h₁, h₂, Outcome.SameAnswers] at hs
    | some answer =>
      cases h₂ : server₂ (past₂ ++ [r₂]) with
      | none => simp [h₁, h₂, Outcome.SameAnswers] at hs
      | some answer' =>
        simp only [h₁, h₂, Outcome.SameAnswers, List.zip_cons_cons, List.mem_cons,
          forall_eq_or_imp, Option.some.injEq] at hs
        obtain ⟨rfl, hrest⟩ := hs
        obtain ⟨hresult, hrequests⟩ := ih answer hrest
        refine ⟨hresult, ?_⟩
        simp only [Outcome.requests, List.map_cons, hr, List.cons.injEq, true_and]
        exact hrequests

/-- **Plans that are alike end alike**, if their requests get the same answers. -/
theorem run (h : Alike p q) {server₁ server₂ : Backend}
    (hs : (p.run server₁).SameAnswers (q.run server₂)) :
    (p.run server₁).result = (q.run server₂).result ∧
    (p.run server₁).requests.map Request.anonymous =
      (q.run server₂).requests.map Request.anonymous :=
  h.runAfter hs

end Plan.Alike

/-! ## Requests -/

theorem isLegal_basic (user password : Text) : (Header.basic user password).isLegal = true := by
  have hall : ("Basic ".toList ++ '=' :: Base64.alphabet).all
      (fun c => c == '\t' || (0x20 ≤ c.toNat && c.toNat != 0x7F)) = true := by decide
  rw [Header.isLegal, List.all_eq_true]
  intro c hc
  refine List.all_eq_true.mp hall c (List.mem_append.mpr ?_)
  exact (List.mem_append.mp hc).imp_right Base64.mem_encode

theorem isLegal_authHeaders {c : Connection} (h : c.HasLegalToken) :
    c.authHeaders.all Header.isLegal = true := by
  unfold Connection.authHeaders
  split
  · rename_i ht
    simpa using h _ ht
  · simp [isLegal_basic]
  · rfl

theorem filter_authHeaders (c : Connection) :
    c.authHeaders.filter (fun h => h.name ≠ Header.authorization) = [] :=
  List.filter_eq_nil_iff.mpr fun h hm => by simp [name_of_mem_authHeaders hm]

section Requests

variable {a b : Connection}

theorem orgHeaders_eq (h : a.SameButSecrets b) : a.orgHeaders = b.orgHeaders := by
  rw [Connection.orgHeaders, Connection.orgHeaders, h.orgId]

theorem authMode_eq (h : a.SameButSecrets b) : a.authMode = b.authMode := by
  rw [Connection.authMode, Connection.authMode, h.token, h.username, h.password]

/-- **What a secret decides about a request** is what it proves, and nothing else: neither whether
the request can be built, nor where it goes. -/
theorem build_alike (h : a.SameButSecrets b) (ha : a.HasLegalToken) (hb : b.HasLegalToken)
    (agent : Option Text) (url : Url) (patience : Span) :
    (∃ fault, Request.build a agent url patience = .error fault ∧
      Request.build b agent url patience = .error fault) ∨
    ∃ r₁ r₂, Request.build a agent url patience = .ok r₁ ∧
      Request.build b agent url patience = .ok r₂ ∧ r₁.anonymous = r₂.anonymous := by
  unfold Request.build
  dsimp only
  simp only [List.all_append, isLegal_authHeaders ha, isLegal_authHeaders hb, orgHeaders_eq h]
  split_ifs
  · exact Or.inl ⟨_, rfl, rfl⟩
  · exact Or.inl ⟨_, rfl, rfl⟩
  · refine Or.inr ⟨_, _, rfl, rfl, ?_⟩
    simp only [Request.anonymous, List.filter_append, filter_authHeaders]

end Requests

/-! ## Clients -/

section Clients

variable {α : Type} {k₁ k₂ : Client}

theorem receive_eq (shape : Json.Decoder α) {r₁ r₂ : Request} (h : r₁.anonymous = r₂.anonymous) :
    Client.receive shape r₁ = Client.receive shape r₂ := by
  have hurl : r₁.url = r₂.url := by
    change r₁.anonymous.url = r₂.anonymous.url
    rw [h]
  funext answer
  cases answer <;> simp only [Client.receive, hurl]

theorem attempt_alike (h : k₁.SameButSecrets k₂) (call : Except CallError (Call α)) :
    Plan.Alike (k₁.attempt call) (k₂.attempt call) := by
  cases call with
  | error e => exact .done _
  | ok call =>
    have hb := build_alike h.connection h.legal₁ h.legal₂ k₂.agent
      (k₂.base.endpoint call.segments call.pairs) call.patience
    rw [Client.attempt, Client.attempt, Client.perform, Client.perform, Client.request,
      Client.request, h.agent, h.base]
    rcases hb with ⟨fault, h₁, h₂⟩ | ⟨r₁, r₂, h₁, h₂, hr⟩
    · rw [h₁, h₂]
      exact .done _
    · rw [h₁, h₂]
      refine .send hr fun answer => ?_
      rw [receive_eq call.shape hr]
      exact .done _

theorem describe_eq (h : k₁.SameButSecrets k₂) : k₁.describe = k₂.describe := by
  unfold Client.describe
  rw [h.base, authMode_eq h.connection, h.connection.orgId]

variable {a b : Connection}

/-- The clients of one call over connections that are the same but for secrets are so, too. -/
theorem forCall_alike (h : a.SameButSecrets b) (ha : a.HasLegalToken) (hb : b.HasLegalToken)
    (agent url orgId : Option Text) :
    (∃ e, Client.forCall agent a url orgId = .error e ∧
      Client.forCall agent b url orgId = .error e) ∨
    ∃ k₁ k₂, Client.forCall agent a url orgId = .ok k₁ ∧
      Client.forCall agent b url orgId = .ok k₂ ∧ k₁.SameButSecrets k₂ := by
  unfold Client.forCall Connection.resolve
  rw [h.url, h.orgId]
  cases b.url.or (nonBlank url) with
  | none => exact Or.inl ⟨_, rfl, rfl⟩
  | some u =>
    simp only [bind, Except.bind, Client.connect]
    cases Url.parse u with
    | error fault => exact Or.inl ⟨_, rfl, rfl⟩
    | ok base =>
      refine Or.inr ⟨_, _, rfl, rfl, rfl, ?_, rfl, ha, hb⟩
      exact ⟨rfl, rfl, h.username, h.password, h.token⟩

end Clients

/-! ## Tool calls -/

section ToolCalls

variable {c₁ c₂ : Config}

theorem perform_alike {k₁ k₂ : Client} (h : k₁.SameButSecrets k₂) (args : Arguments) (t : Tool) :
    Plan.Alike (t.perform k₁ args) (t.perform k₂ args) := by
  unfold Tool.perform
  cases t.job args with
  | error e => exact .done _
  | ok j => exact (attempt_alike h j.call).map _

theorem offersTool_eq (h : c₁.SameButSecrets c₂) : c₁.offersTool = c₂.offersTool := by
  funext t
  simp only [Config.offersTool, Config.offers, Config.isCategoryEnabled, Config.isToolEnabled,
    h.preset, h.overrides, h.categories]

theorem whyHidden_eq (h : c₁.SameButSecrets c₂) (t : Tool) : c₁.whyHidden t = c₂.whyHidden t := by
  unfold Config.whyHidden Config.isCategoryEnabled
  rw [h.preset, h.overrides, h.categories]

/-- **Tool calls are alike** under configurations that are the same but for secrets. -/
theorem execute_alike (h : c₁.SameButSecrets c₂) (h₁ : c₁.connection.HasLegalToken)
    (h₂ : c₂.connection.HasLegalToken) (name : Text) (args : Arguments) :
    Plan.Alike (execute c₁ name args) (execute c₂ name args) := by
  unfold execute
  cases Tool.find? name with
  | none => exact .done _
  | some t =>
    simp only [offersTool_eq h, whyHidden_eq h]
    split_ifs
    · exact .done _
    · rcases forCall_alike h.connection h₁ h₂ (some Program.agent) args.url args.orgId with
        ⟨e, hk₁, hk₂⟩ | ⟨k₁, k₂, hk₁, hk₂, hk⟩
      · rw [hk₁, hk₂]
        exact .done _
      · rw [hk₁, hk₂]
        exact (perform_alike hk args t).map _

/-- **Nothing that is shown depends on a secret.**  Under configurations that differ only in what
their username, password and token are, tool calls that get the same answers have the same results
and send the same requests but for the headers that prove who asks; the server and the clients of
calls describe themselves alike, and the same tools are listed. -/
theorem secrets_are_not_shown (h : c₁.SameButSecrets c₂) (h₁ : c₁.connection.HasLegalToken)
    (h₂ : c₂.connection.HasLegalToken) :
    (∀ name args server₁ server₂,
      ((dispatch c₁ name args).run server₁).SameAnswers ((dispatch c₂ name args).run server₂) →
      ((dispatch c₁ name args).run server₁).result = ((dispatch c₂ name args).run server₂).result ∧
      ((dispatch c₁ name args).run server₁).requests.map Request.anonymous =
        ((dispatch c₂ name args).run server₂).requests.map Request.anonymous) ∧
    c₁.describe = c₂.describe ∧
    c₁.enabledTools = c₂.enabledTools ∧
    c₁.connection.authMode = c₂.connection.authMode ∧
    ∀ agent url orgId,
      (Client.forCall agent c₁.connection url orgId).map
        (fun k => (k.describe, k.connection.authMode)) =
      (Client.forCall agent c₂.connection url orgId).map
        (fun k => (k.describe, k.connection.authMode)) := by
  refine ⟨fun name args server₁ server₂ hs => ?_, ?_, ?_, authMode_eq h.connection,
    fun agent url orgId => ?_⟩
  · exact ((execute_alike h h₁ h₂ name args).map ToolResult.ofExcept).run hs
  · unfold Config.describe
    rw [h.preset, h.connection.url, authMode_eq h.connection]
  · rw [Config.enabledTools, Config.enabledTools, offersTool_eq h]
  · rcases forCall_alike h.connection h₁ h₂ agent url orgId with
      ⟨e, hk₁, hk₂⟩ | ⟨k₁, k₂, hk₁, hk₂, hk⟩
    · rw [hk₁, hk₂]
    · simp only [hk₁, hk₂, Except.map, describe_eq hk, authMode_eq hk.connection]

end ToolCalls

/-- A configuration with a token. -/
def configWithToken (token : String) : Config :=
  { connection := { url := some "http://h".toList, token := some token.toList } }

/-- A server that has nothing but an error page. -/
def brokenBackend : Backend :=
  fun _ => some (.replied 502 "bad gateway".toList)

/-- Two calls that prove themselves with different tokens to a server that is broken. -/
theorem secrets_are_not_shown_of_tokens :
    (configWithToken "alpha").SameButSecrets (configWithToken "beta") ∧
    sent (configWithToken "alpha") "get_alerts".toList [] brokenBackend ≠
      sent (configWithToken "beta") "get_alerts".toList [] brokenBackend ∧
    ((dispatch (configWithToken "alpha") "get_alerts".toList []).run brokenBackend).result =
      ((dispatch (configWithToken "beta") "get_alerts".toList []).run brokenBackend).result := by
  have h : (configWithToken "alpha").SameButSecrets (configWithToken "beta") :=
    ⟨rfl, rfl, ⟨rfl, rfl, rfl, rfl, rfl⟩, rfl, rfl⟩
  have h₁ : (configWithToken "alpha").connection.HasLegalToken := by
    rintro token ht
    cases ht
    decide
  have h₂ : (configWithToken "beta").connection.HasLegalToken := by
    rintro token ht
    cases ht
    decide
  refine ⟨h, by decide +kernel, ?_⟩
  exact ((secrets_are_not_shown h h₁ h₂).1 _ _ _ _
    (by unfold Outcome.SameAnswers; decide +kernel)).1

end MetricsBridge
