import MetricsBridge.Text.Quoted
import MetricsBridge.Backend.Call
import MetricsBridge.Backend.Plan
import MetricsBridge.Url.Parse

/-!
# Clients

A client makes calls over one connection.
-/
namespace MetricsBridge

/-- A connection whose address has been read, and the name that the program gives itself. -/
structure Client where
  base : Url
  connection : Connection
  agent : Option Text
  deriving DecidableEq, Repr

namespace Client

/-- The client for a connection. -/
def connect (agent : Option Text) (c : Connection) : Except CallError Client :=
  match c.url with
  | none => .error .missingUrl
  | some url =>
    match Url.parse url with
    | .ok base => .ok ⟨base, c, agent⟩
    | .error fault => .error (.invalidUrl url fault.message)

/-- The client for one call, which may name a server and a tenant. -/
def forCall (agent : Option Text) (base : Connection) (url orgId : Option Text) :
    Except CallError Client := do
  connect agent (← base.resolve url orgId)

/-- The request of a call. -/
def request {α : Type} (c : Client) (call : Call α) : Except SendFault Request :=
  Request.build c.connection c.agent (c.base.endpoint call.segments call.pairs) call.patience

/-- What an answer to a request brings. -/
def receive {α : Type} (shape : Json.Decoder α) (r : Request) : Answer → Except CallError (Reply α)
  | .unreachable => .error (.notSent (.unreachable r.url.render))
  | .dropped => .error (.notSent (.unreachable r.url.render))
  | .cutShort => .error (.notSent .brokenBody)
  | .replied status body => Envelope.interpret shape status body

/-- Makes a call: one request, unless it cannot be sent. -/
def perform {α : Type} (c : Client) (call : Call α) : Plan (Except CallError (Reply α)) :=
  match c.request call with
  | .error fault => .done (.error (.notSent fault))
  | .ok r => .send r fun answer => .done (receive call.shape r answer)

/-- Makes a call if its arguments are good. -/
def attempt {α : Type} (c : Client) (call : Except CallError (Call α)) :
    Plan (Except CallError (Reply α)) :=
  match call with
  | .ok call => c.perform call
  | .error e => .done (.error e)

/-- A description that shows no secret but those in the address. -/
def describe (c : Client) : Text :=
  "PrometheusClient \x7b base_url: ".toList ++ Quoted.encode c.base.render
    ++ ", auth: ".toList ++ c.connection.authMode.name ++ ", org_id: ".toList
    ++ (match c.connection.orgId with
      | some id => "Some(".toList ++ Quoted.encode id ++ [')']
      | none => "None".toList)
    ++ " \x7d".toList

end Client

end MetricsBridge
