import MetricsBridge.Json.Basic

/-!
# Messages of a client

A client sends requests, which have an id and are answered; notices, which are not; and outcomes of
requests of the server, which makes none.  A request whose parameters are not of the form that its
method asks for counts as one of an unknown method, and such a notice as one that says nothing.
-/
namespace MetricsBridge

/-- What a request is known by. -/
inductive RequestId where
  | number (n : Int)
  | text (t : Text)
  deriving DecidableEq, Repr

/-- What a client asks for. -/
inductive Demand where
  | greeting (protocol : Text)
  | ping
  | listTools
  | callTool (name : Text) (arguments : Table Json)
  | enqueueTool
  | complete
  | listPrompts
  | listResources
  | listResourceTemplates
  | other (method : Text)

/-- What a client says without asking for anything. -/
inductive Notice where
  | ready
  | cancel (id : RequestId)
  | other
  deriving DecidableEq, Repr

/-- A message of a client. -/
inductive Message where
  | request (id : RequestId) (demand : Demand)
  | notice (n : Notice)
  | outcome

namespace Json

/-- The value is a text. -/
def isText : Json → Bool
  | .text _ => true
  | _ => false

/-- The value is a truth value. -/
def isBool : Json → Bool
  | .bool _ => true
  | _ => false

/-- The value is an object. -/
def isObject : Json → Bool
  | .object _ => true
  | _ => false

/-- The value is an object whose values satisfy `p`. -/
def isTableOf (p : Json → Bool) : Json → Bool
  | .object fields => fields.all fun f => p f.2
  | _ => false

/-- The field has a value that satisfies `p`. -/
def has (name : String) (p : Json → Bool) (j : Json) : Bool :=
  ((j.get? name.toList).map p).getD false

/-- The field has a value that satisfies `p`, or is null or left out. -/
def mayHave (name : String) (p : Json → Bool) (j : Json) : Bool :=
  match j.get? name.toList with
  | none => true
  | some .null => true
  | some v => p v

end Json

/-- An id: an integer below `2 ^ 63`, or a text. -/
def RequestId.ofJson? : Json → Option RequestId
  | .text t => some (.text t)
  | .number (.natural n) => if n < Nat.pow 2 63 then some (.number n) else none
  | .number (.negative n) => some (.number (-n))
  | _ => none

/-- An id as JSON. -/
def RequestId.toJson : RequestId → Json
  | .text t => .text t
  | .number (.ofNat n) => .number (.natural n)
  | .number (.negSucc n) => .number (.negative (n + 1))

namespace Demand

/-- The object of parameters, which may hold data for the transport. -/
def isParams (j : Json) : Bool :=
  j.isObject && j.mayHave "_meta" Json.isObject

/-- What a client can do. -/
def isCapabilities (j : Json) : Bool :=
  j.isObject && j.mayHave "experimental" (Json.isTableOf Json.isObject)
    && j.mayHave "roots" (fun r => r.isObject && r.mayHave "listChanged" Json.isBool)
    && j.mayHave "sampling" Json.isObject && j.mayHave "elicitation" Json.isObject
    && j.mayHave "tasks" Json.isObject

/-- How a client names itself. -/
def isClientInfo (j : Json) : Bool :=
  j.has "name" Json.isText && j.has "version" Json.isText && j.mayHave "title" Json.isText
    && j.mayHave "websiteUrl" Json.isText

/-- A greeting. -/
def greeting? (params : Json) : Option Demand :=
  match params.get? "protocolVersion".toList with
  | some (.text protocol) =>
    if isParams params && params.has "capabilities" isCapabilities
        && params.has "clientInfo" isClientInfo then
      some (.greeting protocol)
    else none
  | _ => none

/-- A call of a tool. -/
def callTool? (params : Json) : Option Demand :=
  match params.get? "name".toList with
  | some (.text name) =>
    if isParams params && params.mayHave "task" Json.isObject
        && params.mayHave "arguments" Json.isObject then
      if params.has "task" Json.isObject then some .enqueueTool
      else match params.get? "arguments".toList with
        | some (.object fields) => some (.callTool name fields)
        | _ => some (.callTool name [])
    else none
  | _ => none

/-- What a completion is asked for. -/
def isReference (j : Json) : Bool :=
  match j.get? "type".toList with
  | some (.text kind) =>
    (kind = "ref/resource".toList && j.has "uri" Json.isText)
      || (kind = "ref/prompt".toList && j.has "name" Json.isText && j.mayHave "title" Json.isText)
  | _ => false

/-- A completion. -/
def complete? (params : Json) : Option Demand :=
  if isParams params && params.has "ref" isReference
      && params.has "argument" (fun a => a.has "name" Json.isText && a.has "value" Json.isText)
      && params.mayHave "context" (fun c => c.isObject
        && c.mayHave "arguments" (Json.isTableOf Json.isText)) then
    some .complete
  else none

/-- A listing, which may go on from an earlier one. -/
def listing? (demand : Demand) : Option Json → Option Demand
  | none => some demand
  | some .null => some demand
  | some params =>
    if isParams params && params.mayHave "cursor" Json.isText then some demand else none

/-- The demand of a method that is known, if the parameters are of its form. -/
def known? (method : Text) (params : Option Json) : Option Demand :=
  if method = "ping".toList then some .ping
  else if method = "initialize".toList then params.bind greeting?
  else if method = "tools/call".toList then params.bind callTool?
  else if method = "completion/complete".toList then params.bind complete?
  else if method = "tools/list".toList then listing? .listTools params
  else if method = "prompts/list".toList then listing? .listPrompts params
  else if method = "resources/list".toList then listing? .listResources params
  else if method = "resources/templates/list".toList then listing? .listResourceTemplates params
  else none

/-- The demand of a method with parameters. -/
def ofMethod (method : Text) (params : Option Json) : Demand :=
  (known? method params).getD (.other method)

end Demand

/-- The notice of a method with parameters. -/
def Notice.ofMethod (method : Text) (params : Option Json) : Notice :=
  if method = "notifications/initialized".toList then .ready
  else if method = "notifications/cancelled".toList then
    match params with
    | some p =>
      if Demand.isParams p && p.mayHave "reason" Json.isText then
        (((p.get? "requestId".toList).bind RequestId.ofJson?).map Notice.cancel).getD .other
      else .other
    | none => .other
  else .other

namespace Message

/-- The version of the framing. -/
def framing : Text := "2.0".toList

/-- The value is the version of the framing. -/
def isFraming : Json → Bool
  | .text t => t == framing
  | _ => false

/-- The text and the number of an error. -/
def isError (j : Json) : Bool :=
  j.has "message" Json.isText && j.has "code" fun
    | .number (.natural n) => n < Nat.pow 2 31
    | .number (.negative n) => n ≤ Nat.pow 2 31
    | _ => false

/-- The message that a JSON value is, if it is one. -/
def ofJson? : Json → Option Message
  | .array [version, id, _] =>
    if isFraming version && (RequestId.ofJson? id).isSome then some .outcome else none
  | j =>
    if !(j.has "jsonrpc" isFraming) then none
    else
      let id := (j.get? "id".toList).bind RequestId.ofJson?
      let params := j.get? "params".toList
      match id, (j.get? "method".toList).bind Json.text? with
      | some id, some method => some (.request id (.ofMethod method params))
      | none, some method => some (.notice (.ofMethod method params))
      | some _, none =>
        if (j.get? "result".toList).isSome || j.has "error" isError then some .outcome else none
      | none, none => none

end Message

end MetricsBridge
