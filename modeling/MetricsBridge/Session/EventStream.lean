import MetricsBridge.Json.Reader
import MetricsBridge.Session.Basic
import MetricsBridge.Session.Endpoint
import MetricsBridge.Session.Inbound

/-!
# Sessions over event streams

A client opens a stream and is told where to post its messages; the responses come on the stream.
Every stream is one session, known by the id of the stream until the stream is dropped.  A message
that is accepted waits in the inbox of its session until the session takes it.
-/
namespace MetricsBridge

/-- What a stream carries. -/
inductive StreamEvent where
  | endpoint (target : Text)
  | message (r : Response)

/-- The name of the kind of an event. -/
def StreamEvent.name : StreamEvent → Text
  | .endpoint _ => "endpoint".toList
  | .message _ => "message".toList

/-- An open stream: what it has carried, the messages that wait, and the session. -/
structure Channel where
  id : Text
  events : List StreamEvent
  inbox : List Message := []
  session : Session := {}

/-- What becomes of a message that is posted. -/
inductive Posted where
  | accepted
  | unknownSession
  | sessionEnded
  deriving DecidableEq, Repr

/-- The status that says what has become of a message. -/
def Posted.status : Posted → Status
  | .accepted => .accepted
  | .unknownSession => .notFound
  | .sessionEnded => .gone

/-- The streams that are open. -/
abbrev Hub := List Channel

namespace Hub

/-- Where the messages of a session are to be posted. -/
def target (messagePath id : Text) : Text :=
  messagePath ++ "?sessionId=".toList ++ id

/-- Opens a stream; what it carries first says where to post. -/
def opened (hub : Hub) (messagePath id : Text) : Hub :=
  hub ++ [⟨id, [.endpoint (target messagePath id)], [], {}⟩]

/-- Drops a stream, and its session with it. -/
def dropped (hub : Hub) (id : Text) : Hub :=
  hub.filter fun ch => ch.id != id

/-- The stream of an id. -/
def channel? (hub : Hub) (id : Text) : Option Channel :=
  hub.find? fun ch => ch.id == id

/-- Changes the streams of an id. -/
def update (hub : Hub) (id : Text) (f : Channel → Channel) : Hub :=
  hub.map fun ch => if ch.id = id then f ch else ch

/-- Posts a message to a session. -/
def post (hub : Hub) (id : Text) (m : Message) : Posted × Hub :=
  match hub.channel? id with
  | none => (.unknownSession, hub)
  | some ch =>
    if ch.session.phase = .ended then (.sessionEnded, hub)
    else (.accepted, hub.update id fun ch => { ch with inbox := ch.inbox ++ [m] })

end Hub

namespace Channel

/-- Responses go out on the stream. -/
def carry (ch : Channel) (rs : List Response) : Channel :=
  { ch with events := ch.events ++ rs.map .message }

/-- The session takes the oldest message that waits. -/
def take (c : Config) (ch : Channel) : Channel :=
  match ch.inbox with
  | [] => ch
  | m :: rest =>
    let (session, sent) := ch.session.receive c m
    carry { ch with session, inbox := rest } (Session.responses sent)

/-- The session hears the answer to the request of one of its calls. -/
def hear (ch : Channel) (call : RequestId) (a : Answer) : Channel :=
  let (session, sent) := ch.session.hear call a
  carry { ch with session } (Session.responses sent)

/-- The session takes these messages and the server answers what it asks for each. -/
def takeAll (c : Config) (server : Backend) : Channel → List Message → Channel × List Exchange
  | ch, [] => ({ ch with inbox := [] }, [])
  | ch, m :: rest =>
    let (session, exchanges, responses) := ch.session.deliver c server m
    let (ch, more) := takeAll c server (carry { ch with session } responses) rest
    (ch, exchanges ++ more)

/-- The session takes every message that waits. -/
def work (c : Config) (server : Backend) (ch : Channel) : Channel × List Exchange :=
  takeAll c server ch ch.inbox

end Channel

/-! ### Over HTTP -/

/-- A server of event streams: its paths in normal form, and the open streams. -/
structure StreamServer where
  config : Config
  streamPath : Text
  messagePath : Text
  hub : Hub := []

/-- What a request asks of the server. -/
inductive StreamAction where
  | refuse (s : Status)
  | openStream
  | openAndDrop
  | post (session : Text) (m : Message)

namespace StreamServer

/-- The server with the given paths. -/
def start (config : Config) (streamPath messagePath : Text) : StreamServer where
  config := config
  streamPath := Endpoint.normalize streamPath
  messagePath := Endpoint.normalize messagePath

/-- The message that a body holds. -/
def messageOf (body : Text) : Except Status Message :=
  match Json.Cursor.value (Json.Cursor.enoughSteps body) Json.maxDepth (Json.Cursor.start body) with
  | .error _ => .error .badRequest
  | .ok (j, cur) =>
    match Message.ofJson? j with
    | none => .error .unprocessable
    | some m =>
      match cur.finish with
      | .ok () => .ok m
      | .error _ => .error .badRequest

/-- What a posted request asks: it names one session, says that it holds JSON, and holds a
message. -/
def postAction (r : Inbound) : StreamAction :=
  match r.queryValues "sessionId" with
  | [session] =>
    if ((r.header? "content-type").map MediaType.isJson).getD false then
      match messageOf r.body with
      | .ok m => .post session m
      | .error s => .refuse s
    else .refuse .unsupportedMediaType
  | _ => .refuse .badRequest

/-- What a request asks. -/
def action (server : StreamServer) (r : Inbound) : StreamAction :=
  if r.path = server.streamPath ∧ r.method = "GET".toList then .openStream
  else if r.path = server.streamPath ∧ r.method = "HEAD".toList then .openAndDrop
  else if r.path = server.messagePath ∧ r.method = "POST".toList then postAction r
  else if r.path = server.streamPath ∨ r.path = server.messagePath then .refuse .methodNotAllowed
  else .refuse .notFound

/-- Drops a stream. -/
def drop (server : StreamServer) (id : Text) : StreamServer :=
  { server with hub := server.hub.dropped id }

/-- Answers a request; a stream that it opens has the id `fresh`. -/
def handle (server : StreamServer) (fresh : Text) (r : Inbound) : Status × StreamServer :=
  match server.action r with
  | .refuse s => (s, server)
  | .openStream => (.ok, { server with hub := server.hub.opened server.messagePath fresh })
  | .openAndDrop =>
    (.ok, { server with hub := (server.hub.opened server.messagePath fresh).dropped fresh })
  | .post session m =>
    let (posted, hub) := server.hub.post session m
    (posted.status, { server with hub })

/-- The sessions take every message that waits. -/
def work (backend : Backend) (server : StreamServer) : StreamServer × List Exchange :=
  let worked := server.hub.map (Channel.work server.config backend)
  ({ server with hub := worked.map Prod.fst }, (worked.map Prod.snd).flatten)

end StreamServer

end MetricsBridge
