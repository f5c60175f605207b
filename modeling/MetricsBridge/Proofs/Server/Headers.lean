import MetricsBridge.Proofs.Server.Credentials
import MetricsBridge.Proofs.Server.Secrecy

/-!
# The headers of a tool call

`headers_of_sent` lists the headers of a request that a tool call sends: the credentials of its
address, those of the configured connection, the tenant, and the name of the program.  None of their
values holds a character that could end a header, since a request that has one is not sent
(`sent_eq_nil_of_ender`).  `headers_are_of_the_connection` says what they are when the address has
no credentials of its own, as every address that is written without an `@` (`addressInfo_eq_none`).
-/
namespace MetricsBridge

/-- The values of the headers that name the tenant, in the order in which they are sent. -/
def Request.tenants (r : Request) : List Text :=
  (r.headers.filter fun h => h.name = Header.orgId).map Header.value

/-- The tenant that a tool call asks for, if one is configured or given. -/
def effectiveTenant (c : Config) (args : Arguments) : Option Text :=
  c.connection.orgId.or (nonBlank args.orgId)

/-- The character may not stand in the value of a header: it is a control character, be it a line
break or another, and not the tabulator. -/
def Header.IsEnder (c : Char) : Prop :=
  c ≠ '\t' ∧ (c.toNat < 0x20 ∨ c.toNat = 0x7F)

/-- The values of the headers that prove who asks are those that a mode stands for. -/
def AuthMode.IsShownBy : AuthMode → List Text → Prop
  | .bearer, values => ∃ token, values = ["Bearer ".toList ++ token]
  | .basic, values => ∃ payload, values = ["Basic ".toList ++ payload]
  | .none, values => values = []

/-! ## Values of headers -/

section Values

variable {connection : Connection} {agent : Option Text} {url : Url} {patience : Span} {r : Request}

theorem Header.isLegal_iff {h : Header} : h.isLegal = true ↔ ∀ c ∈ h.value, ¬IsEnder c := by
  rw [isLegal, List.all_eq_true]
  refine forall₂_congr fun c _ => ?_
  rw [IsEnder, Bool.or_eq_true, Bool.and_eq_true, beq_iff_eq, decide_eq_true_eq, bne_iff_ne]
  by_cases hc : c = '\t'
  · simp [hc]
  · simp only [hc, false_or, ne_eq, not_false_eq_true, true_and, not_or]
    omega

/-- A request whose headers are not all legal is not built. -/
theorem isLegal_of_build (h : Request.build connection agent url patience = .ok r) :
    ∀ header ∈ r.headers, header.isLegal = true := by
  have hheaders := (Request.build_eq_ok h).2.1
  unfold Request.build at h
  dsimp only at h
  split_ifs at h with hlegal
  rw [Bool.not_eq_true', Bool.not_eq_false, List.all_eq_true] at hlegal
  rw [hheaders]
  exact hlegal

end Values

/-! ## How a connection proves who asks -/

section Modes

variable {connection : Connection} {user password token : Text}

theorem authorizations_of_token (h : connection.token = some token) :
    connection.authorizations = ["Bearer ".toList ++ token] := by
  rw [Connection.authorizations, Connection.authHeaders, h]
  rfl

theorem authorizations_of_login (ht : connection.token = none)
    (hu : connection.username = some user) (hp : connection.password = some password) :
    connection.authorizations = [basicValue (user ++ ':' :: password)] := by
  rw [Connection.authorizations, Connection.authHeaders, ht, hu, hp]
  rfl

theorem authorizations_of_nothing (ht : connection.token = none)
    (h : connection.username = none ∨ connection.password = none) :
    connection.authorizations = [] := by
  rw [Connection.authorizations, Connection.authHeaders, ht]
  rcases h with h | h
  · rw [h]
    rfl
  · rw [h]
    cases connection.username <;> rfl

/-- Headers stand for one mode at most. -/
theorem AuthMode.IsShownBy.unique {m m' : AuthMode} {values : List Text} (h : m.IsShownBy values)
    (h' : m'.IsShownBy values) : m = m' := by
  -- The values of the two modes that have any differ in their second character.
  have hne (token payload : Text) :
      ["Bearer ".toList ++ token] ≠ ["Basic ".toList ++ payload] := by
    intro he
    exact absurd (congrArg (·[1]?) (List.cons.inj he).1) (by simp)
  match m, m', h, h' with
  | .bearer, .bearer, _, _ | .basic, .basic, _, _ | .none, .none, _, _ => rfl
  | .bearer, .basic, ⟨token, ht⟩, ⟨payload, hp⟩ =>
    exact absurd (ht.symm.trans hp) (hne token payload)
  | .basic, .bearer, ⟨payload, hp⟩, ⟨token, ht⟩ =>
    exact absurd (ht.symm.trans hp) (hne token payload)
  | .bearer, .none, ⟨token, ht⟩, hnone => cases ht.symm.trans hnone
  | .none, .bearer, hnone, ⟨token, ht⟩ => cases ht.symm.trans hnone
  | .basic, .none, ⟨payload, hp⟩, hnone => cases hp.symm.trans hnone
  | .none, .basic, hnone, ⟨payload, hp⟩ => cases hp.symm.trans hnone

/-- **The mode of a connection is how it proves who asks**, and no other mode is. -/
theorem isShownBy_authorizations (connection : Connection) (m : AuthMode) :
    m.IsShownBy connection.authorizations ↔ m = connection.authMode := by
  have hmode : connection.authMode.IsShownBy connection.authorizations := by
    cases ht : connection.token with
    | some token =>
      rw [authorizations_of_token ht, Connection.authMode, ht]
      exact ⟨token, rfl⟩
    | none =>
      cases hu : connection.username with
      | none =>
        rw [authorizations_of_nothing ht (.inl hu), Connection.authMode, ht, hu]
        rfl
      | some user =>
        cases hp : connection.password with
        | none =>
          rw [authorizations_of_nothing ht (.inr hp), Connection.authMode, ht, hu, hp]
          rfl
        | some password =>
          rw [authorizations_of_login ht hu hp, Connection.authMode, ht, hu, hp]
          exact ⟨_, rfl⟩
  exact ⟨fun h => h.unique hmode, fun h => h ▸ hmode⟩

end Modes

/-! ## Tool calls -/

section Sent

variable {c : Config} {name : Text} {args : Arguments} {server : Backend} {r : Request}

theorem orgHeaders_eq_map (connection : Connection) : connection.orgHeaders =
    (connection.orgId.map fun id => (⟨Header.orgId, id⟩ : Header)).toList := by
  unfold Connection.orgHeaders
  cases connection.orgId <;> rfl

/-- **The headers of a tool call**, all of which are legal. -/
theorem headers_of_sent (h : r ∈ sent c name args server) : r.headers =
      ((addressInfo c args).map fun info => (⟨Header.authorization, basicValue info⟩ : Header)).toList
        ++ c.connection.authHeaders
        ++ ((effectiveTenant c args).map fun id => (⟨Header.orgId, id⟩ : Header)).toList
        ++ [⟨Header.userAgent, Program.agent⟩] ∧
    ∀ header ∈ r.headers, header.isLegal = true := by
  obtain ⟨tool, client, j, k, -, -, hclient, -, -, hr⟩ := mem_sent.mp h
  obtain ⟨url, -, -, hconn, hagent⟩ := forCall_eq_ok hclient
  refine ⟨?_, isLegal_of_build hr⟩
  rw [(Request.build_eq_ok hr).2.1, Url.takeAuthorization_fst, orgHeaders_eq_map, hconn, hagent,
    addressInfo_of_forCall hclient]
  rfl

/-- **The tenant of a tool call** is the configured one, or else the one that it gives. -/
theorem tenants_of_sent (h : r ∈ sent c name args server) :
    r.tenants = (effectiveTenant c args).toList := by
  have hauth : c.connection.authHeaders.filter (fun h => h.name = Header.orgId) = [] :=
    List.filter_eq_nil_iff.mpr fun header hm => by
      rw [name_of_mem_authHeaders hm]
      decide
  have hinfo : (((addressInfo c args).map fun info =>
      (⟨Header.authorization, basicValue info⟩ : Header)).toList).filter
      (fun h => h.name = Header.orgId) = [] := by
    cases addressInfo c args <;> rfl
  rw [Request.tenants, (headers_of_sent h).1, List.filter_append, List.filter_append,
    List.filter_append, hauth, hinfo]
  cases effectiveTenant c args <;> rfl

/-- The token and the tenant of a tool call are in its headers. -/
theorem exists_header_of_value (h : r ∈ sent c name args server) {value : Text}
    (hv : c.connection.token = some value ∨ effectiveTenant c args = some value) :
    ∃ header ∈ r.headers, value ⊆ header.value := by
  rw [(headers_of_sent h).1]
  rcases hv with hv | hv
  · refine ⟨Header.bearer value, ?_, List.subset_append_right _ _⟩
    simp [Connection.authHeaders, hv]
  · refine ⟨⟨Header.orgId, value⟩, ?_, List.Subset.refl _⟩
    simp [hv]

/-- **A value that could end a header is not sent**, nor is anything else then. -/
theorem sent_eq_nil_of_ender {value : Text}
    (hv : c.connection.token = some value ∨ effectiveTenant c args = some value)
    (hender : ∃ ch ∈ value, Header.IsEnder ch) : sent c name args server = [] := by
  obtain ⟨ch, hch, hender⟩ := hender
  rw [List.eq_nil_iff_forall_not_mem]
  intro r hr
  obtain ⟨header, hmem, hvalue⟩ := exists_header_of_value hr hv
  exact Header.isLegal_iff.mp ((headers_of_sent hr).2 header hmem) ch (hvalue hch) hender

theorem name_of_mem_headers (h : r ∈ sent c name args server) {header : Header}
    (hm : header ∈ r.headers) :
    header.name ∈ [Header.authorization, Header.orgId, Header.userAgent] := by
  rw [(headers_of_sent h).1, List.mem_append, List.mem_append, List.mem_append, Option.mem_toList,
    Option.mem_toList] at hm
  rcases hm with ((hm | hm) | hm) | hm
  · obtain ⟨info, -, rfl⟩ := Option.map_eq_some_iff.mp hm
    exact List.mem_cons_self
  · rw [name_of_mem_authHeaders hm]
    exact List.mem_cons_self
  · obtain ⟨id, -, rfl⟩ := Option.map_eq_some_iff.mp hm
    exact List.mem_cons_of_mem _ List.mem_cons_self
  · rw [List.mem_singleton.mp hm]
    simp

/-- **The headers of a tool call are those of its connection.**  If its address has no credentials
of its own, a request has one proof of who asks, by the token or else by the username and the
password, or none; one tenant, the configured one or else the one that is given, or none; and
nothing else but the name of the program.  Whatever address is asked, the mode of a connection is
the one that its own part of the headers shows.  A tool call whose token or tenant has a character
that is not legal in a header sends nothing.  An address has no credentials of its own if it is
written without an `@`. -/
theorem headers_are_of_the_connection (c : Config) (name : Text) (args : Arguments)
    (server : Backend) :
    (∀ r ∈ sent c name args server, addressInfo c args = none →
      (∀ token, c.connection.token = some token →
        r.authorizations = ["Bearer ".toList ++ token]) ∧
      (∀ user password, c.connection.token = none → c.connection.username = some user →
        c.connection.password = some password →
        ∃ payload, r.authorizations = ["Basic ".toList ++ payload] ∧
          (Base64.decode? payload).bind Utf8.decode? = some (user ++ ':' :: password)) ∧
      (c.connection.token = none →
        c.connection.username = none ∨ c.connection.password = none → r.authorizations = []) ∧
      r.tenants = (c.connection.orgId.or (nonBlank args.orgId)).toList ∧
      ∀ header ∈ r.headers,
        header.name ∈ [Header.authorization, Header.orgId, Header.userAgent] ∧
        ∀ ch ∈ header.value, ¬Header.IsEnder ch) ∧
    (∀ connection agent url patience r, Request.build connection agent url patience = .ok r →
      ∃ layer, r.authorizations = (url.userInfo.map basicValue).toList ++ layer ∧
        ∀ m : AuthMode, m.IsShownBy layer ↔ m = connection.authMode) ∧
    (∀ value,
      c.connection.token = some value ∨ c.connection.orgId.or (nonBlank args.orgId) = some value →
      (∃ ch ∈ value, Header.IsEnder ch) → sent c name args server = []) ∧
    ((∀ url, effectiveUrl c args = some url → '@' ∉ url) → addressInfo c args = none) := by
  refine ⟨fun r hr hinfo => ?_, ?_, fun value => sent_eq_nil_of_ender, addressInfo_eq_none⟩
  · have hauth : r.authorizations = c.connection.authorizations := by
      rw [authorizations_of_sent hr, hinfo]
      rfl
    refine ⟨fun token ht => ?_, fun user password ht hu hp => ?_, fun ht hnone => ?_,
      tenants_of_sent hr, fun header hm => ?_⟩
    · rw [hauth, authorizations_of_token ht]
    · refine ⟨Base64.encode (Utf8.encode (user ++ ':' :: password)), ?_, ?_⟩
      · rw [hauth, authorizations_of_login ht hu hp, basicValue]
      · rw [Base64.decode?_encode, Option.bind_some, Utf8.decode?_encode]
    · rw [hauth, authorizations_of_nothing ht hnone]
    · exact ⟨name_of_mem_headers hr hm, Header.isLegal_iff.mp ((headers_of_sent hr).2 header hm)⟩
  · intro connection agent url patience r hr
    exact ⟨_, authorizations_of_build hr, isShownBy_authorizations connection⟩

end Sent

/-- A connection with a username and a password. -/
def loginConnection : Connection :=
  { url := some "http://h".toList, username := some ['u'], password := some ['p'] }

/-- Arguments that give a tenant alone. -/
def tenantArguments (id : String) : Arguments :=
  [("org_id".toList, .text id.toList)]

/-- A call that proves itself by a username and a password for the tenant that it gives, and one
that gives a tenant with a line break. -/
theorem headers_are_of_the_connection_of_login :
    (∃ r ∈ sent { connection := loginConnection } "get_alerts".toList (tenantArguments "a")
        Backend.offline,
      (∃ payload, r.authorizations = ["Basic ".toList ++ payload] ∧
        (Base64.decode? payload).bind Utf8.decode? = some "u:p".toList) ∧
      r.tenants = [['a']] ∧ AuthMode.IsShownBy .basic r.authorizations) ∧
    sent { connection := loginConnection } "get_alerts".toList (tenantArguments "a\nb")
      Backend.offline = [] := by
  let url : Url := ⟨.http, [], none, ['h'], none, ["api".toList, "v1".toList, "alerts".toList],
    none, none⟩
  let r : Request := ⟨url, [⟨Header.authorization, "Basic dTpw".toList⟩, ⟨Header.orgId, ['a']⟩,
    ⟨Header.userAgent, Program.agent⟩], Span.ofSeconds 30⟩
  have hr : r ∈ sent { connection := loginConnection } "get_alerts".toList (tenantArguments "a")
      Backend.offline := by decide +kernel
  have hbuild : Request.build { loginConnection with orgId := some ['a'] } (some Program.agent) url
      (Span.ofSeconds 30) = .ok r := by decide +kernel
  have hplain : ∀ url, effectiveUrl { connection := loginConnection } (tenantArguments "a") =
      some url → '@' ∉ url := by
    rintro url ⟨⟩
    decide
  have htenant : (loginConnection.orgId.or (nonBlank (tenantArguments "a\nb").orgId)) =
      some "a\nb".toList := by decide +kernel
  have hender : ∃ ch ∈ "a\nb".toList, Header.IsEnder ch :=
    ⟨'\n', by decide, by decide, .inl (by decide)⟩
  obtain ⟨hsent, hmode, -, hinfo⟩ := headers_are_of_the_connection { connection := loginConnection }
    "get_alerts".toList (tenantArguments "a") Backend.offline
  obtain ⟨-, hlogin, -, htenants, -⟩ := hsent r hr (hinfo hplain)
  obtain ⟨layer, hlayer, hshown⟩ := hmode _ _ _ _ r hbuild
  refine ⟨⟨r, hr, hlogin _ _ rfl rfl rfl, htenants, ?_⟩, ?_⟩
  · rw [hlayer]
    exact (hshown .basic).mpr rfl
  · exact (headers_are_of_the_connection { connection := loginConnection } "get_alerts".toList
      (tenantArguments "a\nb") Backend.offline).2.2.1 _ (.inr htenant) hender

end MetricsBridge
