import MetricsBridge.Session.Response

/-!
# Sessions

A session starts with a greeting and the notice that the client is ready, in this order; anything
else ends it.  From then on every request is answered once.  A tool call that needs an answer of the
metrics server waits for it, while the session goes on, and may be cancelled in the meantime.
-/
namespace MetricsBridge

/-- How far a session has come. -/
inductive Phase where
  | fresh
  | greeted
  | ready
  | ended
  deriving DecidableEq, Repr

/-- A tool call whose request is out: the answer decides how it goes on. -/
structure PendingCall where
  id : RequestId
  tool : Text
  request : Request
  next : Answer → Plan ToolResult

/-- A session: how far it has come and the calls that wait, the newest in front. -/
structure Session where
  phase : Phase := .fresh
  pending : List PendingCall := []

/-- What a session sends: a response to the client, or the request of a call. -/
inductive Sending where
  | response (r : Response)
  | request (call : RequestId) (r : Request)

namespace Session

/-- The session in its end: no call waits any more. -/
def ended : Session := ⟨.ended, []⟩

/-- The call that waits under an id; of several the newest. -/
def find? (s : Session) (id : RequestId) : Option PendingCall :=
  s.pending.find? fun p => p.id == id

/-- The session in which the call under an id no longer waits. -/
def release (s : Session) (id : RequestId) : Session :=
  { s with pending := s.pending.eraseP fun p => p.id == id }

/-- Goes on with a call until it is done or waits. -/
def proceed (s : Session) (id : RequestId) (tool : Text) : Plan ToolResult → Session × List Sending
  | .done r => (s, [.response ⟨id, .ok (.called r)⟩])
  | .send r next => ({ s with pending := ⟨id, tool, r, next⟩ :: s.pending }, [.request id r])

/-- The answer to the request of a call.  A call that does not wait does not hear it. -/
def hear (s : Session) (id : RequestId) (a : Answer) : Session × List Sending :=
  match s.find? id with
  | none => (s, [])
  | some p => (s.release id).proceed id p.tool (p.next a)

/-- Cancels a call.  One that does not wait cannot be cancelled. -/
def cancel (s : Session) (id : RequestId) : Session × List Sending :=
  match s.find? id with
  | none => (s, [])
  | some p => (s.release id, [.response ⟨id, .ok (.called (.cancelled p.tool))⟩])

/-- Responds to a request at once. -/
def respond (s : Session) (id : RequestId) (body : Except Refusal Result) :
    Session × List Sending :=
  (s, [.response ⟨id, body⟩])

/-- Attends to a request. -/
def attend (c : Config) (s : Session) (id : RequestId) : Demand → Session × List Sending
  | .callTool name args => s.proceed id name (dispatch c name args)
  | .enqueueTool => s.respond id (.error .noTasks)
  | .greeting _ => s.respond id (.ok (.greeting protocolVersion))
  | .ping => s.respond id (.ok .empty)
  | .listTools => s.respond id (.ok (.tools c.enabledTools))
  | .complete => s.respond id (.ok .completion)
  | .listPrompts => s.respond id (.ok .prompts)
  | .listResources => s.respond id (.ok .resources)
  | .listResourceTemplates => s.respond id (.ok .resourceTemplates)
  | .other method => s.respond id (.error (.unknownMethod method))

/-- The version of the protocol that both sides speak. -/
def commonVersion (protocol : Text) : Text :=
  if protocol < protocolVersion then protocol else protocolVersion

/-- Receives a message. -/
def receive (c : Config) (s : Session) (m : Message) : Session × List Sending :=
  match s.phase, m with
  | .fresh, .request id (.greeting protocol) =>
    respond { s with phase := .greeted } id (.ok (.greeting (commonVersion protocol)))
  | .fresh, _ => (ended, [])
  | .greeted, .notice .ready => ({ s with phase := .ready }, [])
  | .greeted, _ => (ended, [])
  | .ready, .request id demand => s.attend c id demand
  | .ready, .notice (.cancel id) => s.cancel id
  | .ready, _ => (s, [])
  | .ended, _ => (s, [])

/-- Lets the server answer the request of a call, and those that follow, until the call is done or
an answer stays out. -/
def settle (server : Backend) (s : Session) (id : RequestId) :
    Session × List Exchange × List Response :=
  match s.find? id with
  | none => (s, [], [])
  | some p =>
    let o := (Plan.send p.request p.next).run server
    match o.result with
    | none => (s, o.exchanges, [])
    | some r => (s.release id, o.exchanges, [⟨id, .ok (.called r)⟩])

/-- The responses among what is sent. -/
def responses (sent : List Sending) : List Response :=
  sent.filterMap fun
    | .response r => some r
    | .request _ _ => none

/-- The call whose request is sent. -/
def asking? (sent : List Sending) : Option RequestId :=
  sent.findSome? fun
    | .response _ => none
    | .request id _ => some id

/-- Receives a message and, if it leads to the request of a call, lets the server answer that. -/
def deliver (c : Config) (server : Backend) (s : Session) (m : Message) :
    Session × List Exchange × List Response :=
  let (s, sent) := s.receive c m
  match asking? sent with
  | some id =>
    let (s, exchanges, settled) := s.settle server id
    (s, exchanges, responses sent ++ settled)
  | none => (s, [], responses sent)

end Session

end MetricsBridge
