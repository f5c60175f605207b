import MetricsBridge.Proofs.Server.Calling
import MetricsBridge.Proofs.Url.Credentials

/-!
# Who a tool call asks as

The credentials of a request are those of the address, if it carries any, and behind them those of
the configured connection (`authorizations_of_sent`).  The arguments of a tool call have no say in
the second part.  They have one in the first: where no address is configured, a tool call names one,
and with it the credentials that stand in it.
-/
namespace MetricsBridge

/-- The values of the headers that prove who asks, in the order in which they are sent. -/
def Request.authorizations (r : Request) : List Text :=
  (r.headers.filter fun h => h.name = Header.authorization).map Header.value

/-- The credentials that the configured connection proves itself with. -/
def Connection.authorizations (c : Connection) : List Text :=
  c.authHeaders.map Header.value

/-- The user and the password in the address that a tool call asks. -/
def addressInfo (c : Config) (args : Arguments) : Option Text :=
  (effectiveUrl c args).bind fun url => (Url.parse url).toOption.bind Url.userInfo

/-! ### The headers of a request -/

theorem name_of_mem_authHeaders {c : Connection} {h : Header} (hm : h ∈ c.authHeaders) :
    h.name = Header.authorization := by
  unfold Connection.authHeaders at hm
  split at hm
  · cases List.mem_singleton.mp hm
    rfl
  · cases List.mem_singleton.mp hm
    rfl
  · cases hm

theorem name_of_mem_orgHeaders {c : Connection} {h : Header} (hm : h ∈ c.orgHeaders) :
    h.name = Header.orgId := by
  unfold Connection.orgHeaders at hm
  split at hm
  · cases List.mem_singleton.mp hm
    rfl
  · cases hm

/-- **The credentials of a request** are those of its address and those of its connection. -/
theorem authorizations_of_build {c : Connection} {agent : Option Text} {url : Url} {patience : Span}
    {r : Request} (h : Request.build c agent url patience = .ok r) :
    r.authorizations = (url.userInfo.map basicValue).toList ++ c.authorizations := by
  have hauth : c.authHeaders.filter (fun h => h.name = Header.authorization) = c.authHeaders :=
    List.filter_eq_self.mpr fun h hm => by simp [name_of_mem_authHeaders hm]
  have horg : c.orgHeaders.filter (fun h => h.name = Header.authorization) = [] :=
    List.filter_eq_nil_iff.mpr fun h hm => by
      rw [name_of_mem_orgHeaders hm]
      decide
  have hagent : ((agent.map fun name => (⟨Header.userAgent, name⟩ : Header)).toList).filter
      (fun h => h.name = Header.authorization) = [] := by
    cases agent <;> rfl
  rw [Request.authorizations, (Request.build_eq_ok h).2.1, Url.takeAuthorization_fst]
  simp only [List.filter_append, hauth, horg, hagent, List.append_nil, List.map_append,
    Connection.authorizations]
  cases url.userInfo <;> rfl

/-- What is added to the base of a client does not change the credentials in it. -/
theorem authorizations_of_request {α : Type} {client : Client} {k : Call α} {r : Request}
    (h : client.request k = .ok r) : r.authorizations =
      (client.base.userInfo.map basicValue).toList ++ client.connection.authorizations := by
  rw [authorizations_of_build h]
  rfl

/-! ### Tool calls -/

section TwoCalls

variable {c : Config} {name₁ name₂ : Text} {args args₁ args₂ : Arguments}
  {server₁ server₂ : Backend} {r₁ r₂ : Request}

/-- The address that a tool call asks is the base of its client. -/
theorem addressInfo_of_forCall {client : Client}
    (h : Client.forCall (some Program.agent) c.connection args.url args.orgId = .ok client) :
    addressInfo c args = client.base.userInfo := by
  obtain ⟨url, hurl, hbase, -, -⟩ := forCall_eq_ok h
  rw [addressInfo, hurl, Option.bind_some, hbase]
  rfl

/-- **The credentials of a tool call** are those of the address and those of the configuration. -/
theorem authorizations_of_sent (h : r₁ ∈ sent c name₁ args₁ server₁) : r₁.authorizations =
    ((addressInfo c args₁).map basicValue).toList ++ c.connection.authorizations := by
  obtain ⟨tool, client, j, k, -, -, hclient, -, -, hr⟩ := mem_sent.mp h
  obtain ⟨url, -, -, hconn, -⟩ := forCall_eq_ok hclient
  rw [authorizations_of_request hr, addressInfo_of_forCall hclient, hconn]
  rfl

/-- An address that is configured is asked whatever the arguments are. -/
theorem addressInfo_of_configured {url : Text} (h : c.connection.url = some url) :
    addressInfo c args₁ = addressInfo c args₂ := by
  simp only [addressInfo, effectiveUrl, h, Option.some_or]

/-- An address without an `@`, be it configured or given, brings no credentials. -/
theorem addressInfo_eq_none (h : ∀ url, effectiveUrl c args = some url → '@' ∉ url) :
    addressInfo c args = none := by
  unfold addressInfo
  cases hu : effectiveUrl c args with
  | none => rfl
  | some url =>
    cases hp : Url.parse url with
    | error fault => simp [hp, Except.toOption]
    | ok base => simp [hp, Except.toOption, Url.userInfo_of_parse (h url hu) hp]

/-- **Credentials come from the configuration, and from addresses that are given.**  The requests of
two tool calls have the same credentials exactly if the addresses of the calls carry the same ones,
and so always where an address is configured.  A request has the configured credentials and no
others exactly if its address carries none. -/
theorem authorizations_eq_iff (h₁ : r₁ ∈ sent c name₁ args₁ server₁)
    (h₂ : r₂ ∈ sent c name₂ args₂ server₂) :
    (r₁.authorizations = r₂.authorizations ↔ addressInfo c args₁ = addressInfo c args₂) ∧
    (c.connection.url.isSome → r₁.authorizations = r₂.authorizations) ∧
    (r₁.authorizations = c.connection.authorizations ↔ addressInfo c args₁ = none) := by
  have hsame : r₁.authorizations = r₂.authorizations ↔
      addressInfo c args₁ = addressInfo c args₂ := by
    rw [authorizations_of_sent h₁, authorizations_of_sent h₂, List.append_left_inj]
    exact ⟨map_basicValue_injective, fun he => by rw [he]⟩
  refine ⟨hsame, fun hurl => ?_, ?_⟩
  · obtain ⟨url, hurl⟩ := Option.isSome_iff_exists.mp hurl
    exact hsame.mpr (addressInfo_of_configured hurl)
  · rw [authorizations_of_sent h₁]
    cases addressInfo c args₁ <;> simp

end TwoCalls

/-- Arguments that give an address alone. -/
def addressArguments (url : String) : Arguments :=
  [("prometheus_url".toList, .text url.toList)]

/-- Two calls of the same tool, the second with credentials in the address that it gives. -/
theorem authorizations_ne_of_userInfo :
    ∃ r₁ ∈ sent {} "get_alerts".toList (addressArguments "http://h") Backend.offline,
    ∃ r₂ ∈ sent {} "get_alerts".toList (addressArguments "http://u:p@h") Backend.offline,
      r₁.authorizations = [] ∧ r₂.authorizations = ["Basic dTpw".toList] ∧
      addressInfo {} (addressArguments "http://h") ≠
        addressInfo {} (addressArguments "http://u:p@h") := by
  let r₁ : Request := ⟨⟨.http, [], none, ['h'], none, ["api".toList, "v1".toList, "alerts".toList],
    none, none⟩, [⟨Header.userAgent, Program.agent⟩], Span.ofSeconds 30⟩
  let r₂ : Request := ⟨r₁.url, ⟨Header.authorization, "Basic dTpw".toList⟩ :: r₁.headers,
    r₁.patience⟩
  have h₁ : r₁ ∈ sent {} "get_alerts".toList (addressArguments "http://h") Backend.offline := by
    decide +kernel
  have h₂ : r₂ ∈ sent {} "get_alerts".toList (addressArguments "http://u:p@h") Backend.offline := by
    decide +kernel
  refine ⟨r₁, h₁, r₂, h₂, by decide, by decide, fun he => ?_⟩
  exact absurd ((authorizations_eq_iff h₁ h₂).1.mpr he) (by decide)

end MetricsBridge
