import MetricsBridge.Json.Reader
import MetricsBridge.Session.Basic
import MetricsBridge.Session.Endpoint
import MetricsBridge.Session.Inbound

/-!
# Sessions over single requests

Each request that a client posts is answered by a stream of its own.  A greeting without a session
starts one, and its answer names it; every later request names it in a header.
-/
namespace MetricsBridge

/-- A server of sessions by id, all under one path. -/
structure PostServer where
  config : Config
  path : Text
  sessions : List (Text × Session) := []

/-- What a request asks of the server. -/
inductive PostAction where
  | refuse (s : Status)
  | start (id : RequestId) (demand : Demand)
  | deliver (session : Text) (m : Message)
  | listen
  | finish (session : Text)

/-- The answer to a request: its status, the session it starts, and the stream of responses if it
has one, with what the metrics server was asked for them. -/
structure Posting where
  status : Status
  session : Option Text := none
  stream : Option (List Response × List Exchange) := none

namespace PostServer

/-- The server under a path. -/
def start (config : Config) (path : Text) : PostServer where
  config := config
  path := Endpoint.normalize path

/-- The session of an id. -/
def session? (server : PostServer) (id : Text) : Option Session :=
  server.sessions.lookup id

/-- The server with a session changed. -/
def update (server : PostServer) (id : Text) (s : Session) : PostServer :=
  { server with sessions := server.sessions.map fun e => if e.1 = id then (id, s) else e }

/-- The server without a session. -/
def remove (server : PostServer) (id : Text) : PostServer :=
  { server with sessions := server.sessions.filter fun e => e.1 != id }

/-- The path is the one of the server or below it. -/
def covers (server : PostServer) (path : Text) : Bool :=
  server.path == ['/'] || path == server.path || (server.path ++ ['/']).isPrefixOf path

/-- The value of the header has both media types. -/
def accepts (r : Inbound) (types : List String) : Bool :=
  match r.header? "accept" with
  | some value => types.all fun t => Text.occursIn t.toList value
  | none => false

/-- The message that a request holds. -/
def messageOf (r : Inbound) : Option Message :=
  match Json.parse r.body with
  | .ok j => Message.ofJson? j
  | .error _ => none

/-- The media type of a request is the one of JSON. -/
def holdsJson (r : Inbound) : Bool :=
  match r.header? "content-type" with
  | some value => "application/json".toList.isPrefixOf value
  | none => false

/-- The session that a request names. -/
def sessionName (r : Inbound) : Option Text :=
  r.header? "mcp-session-id"

/-- What a posted request asks. -/
def postAction (server : PostServer) (r : Inbound) : PostAction :=
  if !(accepts r ["application/json", "text/event-stream"]) then .refuse .notAcceptable
  else if !(holdsJson r) then .refuse .unsupportedMediaType
  else
    match messageOf r, sessionName r with
    | none, _ => .refuse .unsupportedMediaType
    | some m, some session =>
      if (server.session? session).isSome then .deliver session m else .refuse .unauthorized
    | some (.request id (.greeting protocol)), none => .start id (.greeting protocol)
    | some _, none => .refuse .unprocessable

/-- What a request for a stream of its own asks. -/
def listenAction (server : PostServer) (r : Inbound) : PostAction :=
  if !(accepts r ["text/event-stream"]) then .refuse .notAcceptable
  else match sessionName r with
    | some session =>
      if (server.session? session).isSome then .listen else .refuse .unauthorized
    | none => .refuse .unauthorized

/-- What a request asks. -/
def action (server : PostServer) (r : Inbound) : PostAction :=
  if !(server.covers r.path) then .refuse .notFound
  else if r.method = "POST".toList then server.postAction r
  else if r.method = "GET".toList then server.listenAction r
  else if r.method = "DELETE".toList then
    match sessionName r with
    | some session => .finish session
    | none => .refuse .unauthorized
  else .refuse .methodNotAllowed

/-- The server after a message for a session; a session that has ended is removed. -/
def settled (server : PostServer) (id : Text) (s : Session) : PostServer :=
  if s.phase = .ended then server.remove id else server.update id s

/-- Answers a request; a session that it starts has the id `fresh`. -/
def handle (backend : Backend) (server : PostServer) (fresh : Text) (r : Inbound) :
    Posting × PostServer :=
  match server.action r with
  | .refuse status => ({ status }, server)
  | .start id demand =>
    let (s, exchanges, responses) :=
      ({} : Session).deliver server.config backend (.request id demand)
    ({ status := .ok, session := some fresh, stream := some (responses, exchanges) },
      { server with sessions := server.sessions ++ [(fresh, s)] })
  | .deliver session m =>
    match server.session? session with
    | none => ({ status := .unauthorized }, server)
    | some s =>
      let (s, exchanges, responses) := s.deliver server.config backend m
      match m with
      | .request _ _ =>
        ({ status := .ok, stream := some (responses, exchanges) }, server.settled session s)
      | _ => ({ status := .accepted }, server.settled session s)
  | .listen => ({ status := .ok }, server)
  | .finish session => ({ status := .accepted }, server.remove session)

end PostServer

end MetricsBridge
