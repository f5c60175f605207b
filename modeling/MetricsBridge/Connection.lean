import MetricsBridge.Text.Blank
import MetricsBridge.Backend.Error

/-!
# Connections

Where the metrics server is and how to be let in.  A tool call may name a server and a tenant, which
count only where the configured connection leaves them open.  The token, the username and the
password are always the configured ones; an address may hold further credentials.
-/
namespace MetricsBridge

/-- The value, unless it has nothing but blanks. -/
def nonBlank (value : Option Text) : Option Text :=
  value.filter fun t => !Text.isAllBlank t

/-- Where the metrics server is and how to be let in. -/
structure Connection where
  url : Option Text := none
  username : Option Text := none
  password : Option Text := none
  token : Option Text := none
  orgId : Option Text := none
  deriving DecidableEq, Repr

/-- How a connection proves who asks. -/
inductive AuthMode where
  | bearer
  | basic
  | none
  deriving DecidableEq, Repr

/-- The wording of a mode. -/
def AuthMode.describe : AuthMode → Text
  | .bearer => "bearer token".toList
  | .basic => "basic auth".toList
  | .none => "none".toList

/-- The name of a mode. -/
def AuthMode.name : AuthMode → Text
  | .bearer => "Bearer".toList
  | .basic => "Basic".toList
  | .none => "None".toList

namespace Connection

/-- The connection without its blank values. -/
def normalized (c : Connection) : Connection where
  url := nonBlank c.url
  username := nonBlank c.username
  password := nonBlank c.password
  token := nonBlank c.token
  orgId := nonBlank c.orgId

/-- A token comes first; a username and a password count only together. -/
def authMode (c : Connection) : AuthMode :=
  if c.token.isSome then .bearer
  else if c.username.isSome ∧ c.password.isSome then .basic
  else .none

/-- The connection for one call, which may name a server and a tenant. -/
def resolve (c : Connection) (url orgId : Option Text) : Except CallError Connection :=
  match c.url.or (nonBlank url) with
  | none => .error .missingUrl
  | some u => .ok { c with url := some u, orgId := c.orgId.or (nonBlank orgId) }

end Connection

end MetricsBridge
