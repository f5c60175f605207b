import MetricsBridge.Config.Preset
import MetricsBridge.Connection
import MetricsBridge.Text.Table

/-!
# Configuration

What the server offers and where it asks.  A tool is offered if the preset turns on its category,
the category is not turned off, and the tool itself is not.
-/
namespace MetricsBridge

/-- Whether a tool is turned on, and why. -/
structure ToolOverride where
  enabled : Bool
  reason : Option Text := none
  deriving DecidableEq, Repr

/-- The configuration of the server.  Categories and tools that are not named are turned on. -/
structure Config where
  version : Text := "1.0".toList
  preset : Preset := .full
  connection : Connection := {}
  overrides : Table ToolOverride := []
  categories : Table Bool := []
  deriving DecidableEq, Repr

/-- The variables of the environment. -/
abbrev Environment := Text → Option Text

/-- Why there is no configuration. -/
inductive ConfigError where
  | unreadable (reason : Text)
  | illFormed
  | unknownPreset (name : Text)
  deriving DecidableEq, Repr

/-- The wording of an error, where it has one of its own. -/
def ConfigError.message? : ConfigError → Option Text
  | .unreadable reason => some reason
  | .illFormed => none
  | .unknownPreset name =>
    some ("unknown preset '".toList ++ name ++ "' (expected minimal, standard, or full)".toList)

namespace Config

/-- The configuration with its connection freed from blank values. -/
def withoutBlanks (c : Config) : Config :=
  { c with connection := c.connection.normalized }

/-- The category is not turned off. -/
def isCategoryEnabled (c : Config) (name : Text) : Bool :=
  (c.categories.get? name).getD true

/-- The tool is not turned off. -/
def isToolEnabled (c : Config) (name : Text) : Bool :=
  ((c.overrides.get? name).map ToolOverride.enabled).getD true

/-- A tool of a category is offered. -/
def offers (c : Config) (tool category : Text) : Bool :=
  (c.preset.categories.map Category.name).contains category && c.isCategoryEnabled category
    && c.isToolEnabled tool

/-- The configuration with what the environment says.  Blank variables say nothing. -/
def overlay (c : Config) (env : Environment) : Except ConfigError Config := do
  let var (name : String) := nonBlank (env name.toList)
  let old := c.connection
  let connection : Connection := {
    url := (var "PROMETHEUS_URL").or old.url
    username := (var "PROMETHEUS_USERNAME").or old.username
    password := (var "PROMETHEUS_PASSWORD").or old.password
    token := (var "PROMETHEUS_TOKEN").or old.token
    orgId := (var "PROMETHEUS_ORGID").or old.orgId }
  match var "MCP_PROMETHEUS_PRESET" with
  | none => return { c with connection }
  | some name =>
    match Preset.parse? name with
    | some preset => return { c with connection, preset }
    | none => throw (.unknownPreset name)

end Config

end MetricsBridge
