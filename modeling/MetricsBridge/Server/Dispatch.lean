import MetricsBridge.Catalogue.Schema
import MetricsBridge.Config.Basic
import MetricsBridge.Program
import MetricsBridge.Server.Job
import MetricsBridge.Server.Redaction
import MetricsBridge.Backend.Client

/-!
# Tool calls

`dispatch` carries out a tool call.  It never fails: what goes wrong becomes the text of an error,
in which secrets are hidden.
-/
namespace MetricsBridge

/-- Why a tool call has an error for its result. -/
inductive ToolError where
  | unknownTool (name : Text)
  | notEnabled (name preset : Text)
  | disabled (name reason : Text)
  | badParam (e : ParamError)
  | noClient (e : CallError)
  | failed (action : Text) (e : CallError)
  deriving DecidableEq, Repr

/-- The wording of an error, before secrets are hidden. -/
def ToolError.message : ToolError → Text
  | .unknownTool name => "Unknown tool: ".toList ++ name
  | .notEnabled name preset =>
    "Tool '".toList ++ name ++ "' is not available in the current preset (".toList ++ preset
      ++ ("). Change the preset in the config file or set MCP_PROMETHEUS_PRESET=full to enable all "
        ++ "tools.").toList
  | .disabled name reason =>
    "Tool '".toList ++ name ++ "' is disabled in the config file: ".toList ++ reason
  | .badParam e => "Error: ".toList ++ e.message
  | .noClient e => "Error creating Prometheus client: ".toList ++ e.message
  | .failed action e => "Error ".toList ++ action ++ ": ".toList ++ e.message

/-- The result of a tool call. -/
structure ToolResult where
  text : Text
  isError : Bool
  deriving DecidableEq, Repr

namespace ToolResult

/-- The result of a call that has gone well or not. -/
def ofExcept : Except ToolError Text → ToolResult
  | .ok t => ⟨t, false⟩
  | .error e => ⟨Redaction.redact e.message, true⟩

/-- The result of a call that has been cancelled. -/
def cancelled (tool : Text) : ToolResult :=
  ⟨"Tool call '".toList ++ tool ++ "' was cancelled".toList, true⟩

end ToolResult

namespace Config

/-- The tool is offered. -/
def offersTool (c : Config) (t : Tool) : Bool :=
  c.offers t.name t.category.name

/-- The tools that are offered, in the order of the listing. -/
def enabledTools (c : Config) : List Tool :=
  Tool.all.filter c.offersTool

/-- Why a tool is not offered. -/
def whyHidden (c : Config) (t : Tool) : ToolError :=
  if !(c.preset.categories.contains t.category) then .notEnabled t.name c.preset.name
  else if !c.isCategoryEnabled t.category.name then
    .disabled t.name ("category '".toList ++ t.category.name ++ "' is turned off".toList)
  else
    .disabled t.name
      (((c.overrides.get? t.name).bind ToolOverride.reason).getD
        "turned off by a tool override".toList)

/-- A description of the server that shows no secret but those in the address. -/
def describe (c : Config) : Text :=
  "PrometheusServer \x7b preset: ".toList ++ c.preset.title ++ ", url: ".toList
    ++ (match c.connection.url with
      | some url => "Some(".toList ++ Quoted.encode url ++ [')']
      | none => "None".toList)
    ++ ", auth: ".toList ++ c.connection.authMode.name ++ " \x7d".toList

end Config

/-- Carries out a job. -/
def Job.perform (client : Client) (j : Job) : Plan (Except ToolError Text) :=
  (client.attempt j.call).map fun
    | .ok reply => .ok (j.render reply)
    | .error e => .error (.failed j.action e)

/-- Carries out a tool with given arguments. -/
def Tool.perform (client : Client) (args : Arguments) (t : Tool) : Plan (Except ToolError Text) :=
  match t.job args with
  | .error e => .done (.error (.badParam e))
  | .ok j => j.perform client

/-- Carries out the tool of a name, if it is offered and there is a client for it. -/
def execute (c : Config) (name : Text) (args : Arguments) : Plan (Except ToolError Text) :=
  match Tool.find? name with
  | none => .done (.error (.unknownTool name))
  | some tool =>
    if !c.offersTool tool then .done (.error (c.whyHidden tool))
    else match Client.forCall (some Program.agent) c.connection args.url args.orgId with
      | .error e => .done (.error (.noClient e))
      | .ok client =>
        (tool.perform client args).map fun r => r.map fun t => Render.limit t args.isUnlimited

/-- Carries out a tool call. -/
def dispatch (c : Config) (name : Text) (args : Arguments) : Plan ToolResult :=
  (execute c name args).map ToolResult.ofExcept

end MetricsBridge
