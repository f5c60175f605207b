import MetricsBridge.Catalogue.Schema
import MetricsBridge.Server.Dispatch
import MetricsBridge.Session.Message

/-!
# Responses to a client

Every request has one response, with the id of the request and a result or a refusal.
-/
namespace MetricsBridge

/-- The version of the protocol that the server speaks. -/
def protocolVersion : Text := "2025-03-26".toList

/-- What the server tells a client of itself. -/
def instructions : Text :=
  ("Prometheus MCP server. Run PromQL with execute_query/execute_range_query, discover metrics "
    ++ "with list_metrics, list_label_names, list_label_values and find_series, and inspect "
    ++ "targets, alerts, rules and TSDB stats. Large results are truncated unless "
    ++ "\"unlimited\": \"true\" is passed.").toList

/-- What a request brings. -/
inductive Result where
  | greeting (protocol : Text)
  | empty
  | tools (offered : List Tool)
  | called (r : ToolResult)
  | completion
  | prompts
  | resources
  | resourceTemplates
  deriving DecidableEq, Repr

/-- Why a request brings nothing. -/
inductive Refusal where
  | unknownMethod (method : Text)
  | noTasks
  deriving DecidableEq, Repr

/-- The response to a request. -/
structure Response where
  id : RequestId
  body : Except Refusal Result

/-- The result of a tool call as JSON. -/
def ToolResult.toJson (r : ToolResult) : Json :=
  .ofFields [
    field "content" (.array [.ofFields [textField "type" "text".toList, textField "text" r.text]]),
    field "isError" (.bool r.isError)]

/-- A result as JSON. -/
def Result.toJson : Result → Json
  | .greeting protocol =>
    .ofFields [
      textField "protocolVersion" protocol,
      field "capabilities" (.ofFields [field "tools" (.ofFields [])]),
      field "serverInfo"
        (.ofFields [textField "name" Program.name, textField "version" Program.version]),
      textField "instructions" instructions]
  | .empty => .ofFields []
  | .tools offered => .ofFields [field "tools" (.array (offered.map Tool.describe))]
  | .called r => r.toJson
  | .completion => .ofFields [field "completion" (.ofFields [field "values" (.array [])])]
  | .prompts => .ofFields [field "prompts" (.array [])]
  | .resources => .ofFields [field "resources" (.array [])]
  | .resourceTemplates => .ofFields [field "resourceTemplates" (.array [])]

namespace Refusal

/-- The number of a refusal. -/
def code : Refusal → Int
  | .unknownMethod _ => -32601
  | .noTasks => -32603

/-- The wording of a refusal. -/
def message : Refusal → Text
  | .unknownMethod method => method
  | .noTasks => "Task processing not implemented".toList

/-- A refusal as JSON. -/
def toJson (r : Refusal) : Json :=
  .ofFields [field "code" (.number (.negative r.code.natAbs)), textField "message" r.message]

end Refusal

/-- A response as JSON. -/
def Response.toJson (r : Response) : Json :=
  .ofFields [
    textField "jsonrpc" Message.framing,
    field "id" r.id.toJson,
    match r.body with
    | .ok result => field "result" result.toJson
    | .error refusal => field "error" refusal.toJson]

end MetricsBridge
