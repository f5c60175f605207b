import MetricsBridge.Connection
import MetricsBridge.Text.Base64
import MetricsBridge.Text.Form
import MetricsBridge.Time.Span
import MetricsBridge.Url.Path

/-!
# Requests

A request asks for an address and waits a given time.  Its headers come from the address and from
the connection: credentials in the address go in front of those that are configured.
-/
namespace MetricsBridge

/-- A header of a request. -/
structure Header where
  name : Text
  value : Text
  deriving DecidableEq, Repr

namespace Header

/-- The name of the header that carries credentials. -/
def authorization : Text := "authorization".toList

/-- The name of the header that carries the tenant. -/
def orgId : Text := "x-scope-orgid".toList

/-- The name of the header that names the program. -/
def userAgent : Text := "user-agent".toList

/-- No control character but the tabulator may stand in a value. -/
def isLegal (h : Header) : Bool :=
  h.value.all fun c => c == '\t' || (0x20 ≤ c.toNat && c.toNat != 0x7F)

/-- Credentials of a user. -/
def basic (user password : Text) : Header where
  name := authorization
  value := "Basic ".toList ++ Base64.encode (Utf8.encode (user ++ ':' :: password))

/-- A token. -/
def bearer (token : Text) : Header where
  name := authorization
  value := "Bearer ".toList ++ token

end Header

/-- A request for what stands at an address. -/
structure Request where
  url : Url
  headers : List Header
  patience : Span
  deriving DecidableEq, Repr

namespace Url

/-- The query with further pairs.  An empty query is none. -/
def addPairs (query : Option Text) (pairs : List Form.Pair) : Option Text :=
  let old := query.getD []
  let new := Form.serialize pairs
  let all := if old = [] then new else if pairs = [] then old else old ++ '&' :: new
  if all = [] then none else some all

/-- The address of an endpoint below a base, with pairs added to its query. -/
def endpoint (base : Url) (segments : List Text) (pairs : List Form.Pair) : Url :=
  { base with
    path := extend base.path ("api".toList :: "v1".toList :: segments)
    query := addPairs base.query pairs }

/-- The credentials of an address as a header, and the address without them.  A user that is no text
stays in the address. -/
def takeAuthorization (u : Url) : List Header × Url :=
  match Percent.decode? u.user with
  | none => ([], u)
  | some user =>
    let password := u.password.bind Percent.decode?
    if user = [] ∧ password = none then ([], u)
    else ([Header.basic user (password.getD [])], { u with user := [], password := none })

/-- The host can be sent. -/
def hasSendableHost (u : Url) : Bool :=
  !u.host.any fun c => c == '"' || c == '\x7b' || c == '\x7d' || c == '\x60'

/-- The most bytes that an address may have to be sent. -/
def maxBytes : Nat := 65534

/-- The address can be sent. -/
def isSendable (u : Url) : Bool :=
  u.hasSendableHost && Text.byteLength u.render ≤ maxBytes

end Url

namespace Connection

/-- The headers that prove who asks. -/
def authHeaders (c : Connection) : List Header :=
  match c.token, c.username, c.password with
  | some token, _, _ => [Header.bearer token]
  | none, some user, some password => [Header.basic user password]
  | none, _, _ => []

/-- The header that names the tenant. -/
def orgHeaders (c : Connection) : List Header :=
  match c.orgId with
  | some id => [⟨Header.orgId, id⟩]
  | none => []

end Connection

/-- The request for an address over a connection, from a program that may give its name. -/
def Request.build (c : Connection) (agent : Option Text) (url : Url) (patience : Span) :
    Except SendFault Request :=
  let (fromAddress, url) := url.takeAuthorization
  let headers := fromAddress ++ c.authHeaders ++ c.orgHeaders
    ++ (agent.map fun name => ⟨Header.userAgent, name⟩).toList
  if !headers.all Header.isLegal then .error .illegalHeader
  else if !url.isSendable then .error (.illegalAddress url.render)
  else .ok ⟨url, headers, patience⟩

end MetricsBridge
