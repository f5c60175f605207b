import MetricsBridge.Proofs.Server.Headers
import MetricsBridge.Proofs.Server.Parameters

/-!
# The target of a tool call

A request goes to the origin of the address that its tool call asks, whatever path and query the
tool adds (`sameOrigin_of_sent`).  Arguments may name an address and a tenant, which no tool reads
for anything else.  Where both are configured the two arguments are therefore of no account at all
(`target_is_not_redirected`).
-/
namespace MetricsBridge

/-- Two addresses of the same server. -/
structure Url.SameOrigin (u v : Url) : Prop where
  scheme : u.scheme = v.scheme
  host : u.host = v.host
  portNumber : u.portNumber = v.portNumber

/-- The names of the arguments that name an address and a tenant. -/
def targetNames : List Text :=
  ["prometheus_url".toList, "org_id".toList]

/-! ## Origins -/

theorem Url.sameOrigin_takeAuthorization (u : Url) : u.takeAuthorization.2.SameOrigin u := by
  unfold takeAuthorization
  split
  · exact ⟨rfl, rfl, rfl⟩
  · dsimp only
    split_ifs
    · exact ⟨rfl, rfl, rfl⟩
    · exact ⟨rfl, rfl, rfl⟩

/-- A call stays at the origin of its client. -/
theorem sameOrigin_of_request {α : Type} {client : Client} {k : Call α} {r : Request}
    (h : client.request k = .ok r) : r.url.SameOrigin client.base := by
  obtain ⟨hscheme, hhost, hport⟩ :=
    (client.base.endpoint k.segments k.pairs).sameOrigin_takeAuthorization
  rw [(Request.build_eq_ok h).1]
  exact ⟨hscheme, hhost, hport⟩

/-! ## Tool calls -/

section Calls

variable {c : Config} {name url orgId : Text} {args a b : Arguments} {server : Backend}
  {r : Request}

/-- **A request goes to the server** whose address the tool call asks. -/
theorem sameOrigin_of_sent (h : r ∈ sent c name args server) : ∃ url base,
    effectiveUrl c args = some url ∧ Url.parse url = .ok base ∧ r.url.SameOrigin base := by
  obtain ⟨tool, client, j, k, -, -, hclient, -, -, hr⟩ := mem_sent.mp h
  obtain ⟨url, hurl, hbase, -, -⟩ := forCall_eq_ok hclient
  exact ⟨url, client.base, hurl, hbase, sameOrigin_of_request hr⟩

/-- A connection that has an address and a tenant is the one of every call. -/
theorem resolve_of_configured {connection : Connection} (hurl : connection.url = some url)
    (horg : connection.orgId = some orgId) (givenUrl givenOrgId : Option Text) :
    connection.resolve givenUrl givenOrgId = .ok connection := by
  obtain ⟨_, username, password, token, _⟩ := connection
  cases hurl
  cases horg
  rfl

/-- No tool takes the address or the tenant for a parameter of its own. -/
theorem not_mem_targetNames (tool : Tool) : ∀ n ∈ tool.ownNames, n ∉ targetNames := by
  cases tool <;> decide

theorem job_of_agreeExcept_target (h : AgreeExcept targetNames a b) (tool : Tool) :
    tool.job a = tool.job b := by
  have hu : a.isUnlimited = b.isUnlimited := isUnlimited_congr (h _ (by decide))
  have hl : limitPair a = limitPair b := limitPair_congr (h _ (by decide))
  exact job_congr (h.agreeOn (not_mem_targetNames tool)) (fun _ => hu) fun _ => hl

/-- **A configured target is not redirected.**  If an address and a tenant are configured, arguments
that differ in the address and the tenant that they give make the same of every tool: the same
requests, and the same of every answer.  All requests go to the configured server, for the
configured tenant. -/
theorem target_is_not_redirected (hurl : c.connection.url = some url)
    (horg : c.connection.orgId = some orgId) :
    (∀ a b, AgreeExcept targetNames a b → ∀ name, dispatch c name a = dispatch c name b) ∧
    ∀ name args server, ∀ r ∈ sent c name args server,
      (∃ base, Url.parse url = .ok base ∧ r.url.SameOrigin base) ∧ r.tenants = [orgId] := by
  refine ⟨fun a b h name => ?_, fun name args server r hr => ⟨?_, ?_⟩⟩
  · have hu : a.isUnlimited = b.isUnlimited := isUnlimited_congr (h _ (by decide))
    refine dispatch_eq_of_job ?_ hu fun tool _ => job_of_agreeExcept_target h tool
    rw [Client.forCall, Client.forCall, resolve_of_configured hurl horg,
      resolve_of_configured hurl horg]
  · obtain ⟨url', base, hurl', hbase, horigin⟩ := sameOrigin_of_sent hr
    rw [effectiveUrl, hurl, Option.some_or, Option.some.injEq] at hurl'
    subst hurl'
    exact ⟨base, hbase, horigin⟩
  · rw [tenants_of_sent hr, effectiveTenant, horg, Option.some_or, Option.toList_some]

end Calls

/-- A connection with an address and a tenant. -/
def targetedConnection : Connection :=
  { url := some "http://h".toList, orgId := some ['a'] }

/-- Arguments that give another address and another tenant. -/
def redirection : Arguments :=
  [("prometheus_url".toList, .text "http://elsewhere".toList),
   ("org_id".toList, .number (.natural 7))]

/-- A call that gives another address and another tenant is the call without them. -/
theorem target_is_not_redirected_of_redirection :
    (∃ r, r.url.host = ['h'] ∧ r.tenants = [['a']] ∧
      r ∈ sent { connection := targetedConnection } "get_alerts".toList redirection
        Backend.offline) ∧
    dispatch { connection := targetedConnection } "get_alerts".toList redirection =
      dispatch { connection := targetedConnection } "get_alerts".toList [] := by
  have h : AgreeExcept targetNames redirection [] := by
    intro n hn
    rw [targetNames, List.mem_cons, List.mem_singleton, not_or] at hn
    rw [redirection, Table.get?, List.lookup_cons, beq_false_of_ne hn.1, List.lookup_cons,
      beq_false_of_ne hn.2]
    rfl
  obtain ⟨hsame, hsent⟩ := target_is_not_redirected (c := { connection := targetedConnection })
    rfl rfl
  let r : Request := ⟨⟨.http, [], none, ['h'], none, ["api".toList, "v1".toList, "alerts".toList],
    none, none⟩, [⟨Header.orgId, ['a']⟩, ⟨Header.userAgent, Program.agent⟩], Span.ofSeconds 30⟩
  have hr : r ∈ sent { connection := targetedConnection } "get_alerts".toList redirection
      Backend.offline := by decide +kernel
  exact ⟨⟨r, rfl, (hsent _ _ _ r hr).2, hr⟩, hsame _ _ h _⟩

end MetricsBridge
