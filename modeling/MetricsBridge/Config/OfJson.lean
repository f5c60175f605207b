import MetricsBridge.Config.Basic
import MetricsBridge.Json.Basic

/-!
# Configurations as JSON

The types are strict here: a text is a text.  A record may be given as an array of its fields, and
fields that nobody knows do not matter.
-/
namespace MetricsBridge

namespace Json

/-- The values of the fields of a record, by name or in order; fields at the end may be left out. -/
def recordFields? (names : List String) (j : Json) : Option (List (Option Json)) :=
  match j with
  | .object fields => some (names.map fun name => Table.get? fields name.toList)
  | .array items =>
    if items.length ≤ names.length then
      some (items.map some ++ List.replicate (names.length - items.length) none)
    else none
  | _ => none

/-- A truth value. -/
def asBool? : Json → Option Bool
  | .bool b => some b
  | _ => none

/-- A text, or nothing. -/
def asOptionalText? : Json → Option (Option Text)
  | .null => some none
  | .text t => some (some t)
  | _ => none

/-- A table, each value read by `f`. -/
def asTable? {α : Type} (f : Json → Option α) : Json → Option (Table α)
  | .object fields => fields.mapM fun (name, value) => (f value).map (name, ·)
  | _ => none

/-- The value of a field read by `f`, or `default` if it is left out. -/
def orDefault? {α : Type} (f : Json → Option α) (default : α) : Option Json → Option α
  | none => some default
  | some j => f j

end Json

/-- A preset: its name, or its name as the only field of an object with nothing in it. -/
def Preset.ofJson? : Json → Option Preset
  | .text t => find? t
  | .object [(name, .null)] => find? name
  | _ => none

/-- A connection. -/
def Connection.ofJson? (j : Json) : Option Connection := do
  match ← j.recordFields? ["url", "username", "password", "token", "org_id"] with
  | [url, username, password, token, orgId] =>
    let read := Json.orDefault? Json.asOptionalText? none
    return {
      url := ← read url
      username := ← read username
      password := ← read password
      token := ← read token
      orgId := ← read orgId }
  | _ => none

/-- What is said of a tool. -/
def ToolOverride.ofJson? (j : Json) : Option ToolOverride := do
  match ← j.recordFields? ["enabled", "reason"] with
  | [some enabled, reason] =>
    return {
      enabled := ← enabled.asBool?
      reason := ← Json.orDefault? Json.asOptionalText? none reason }
  | _ => none

/-- Whether a category is turned on. -/
def Category.enabledOfJson? (j : Json) : Option Bool := do
  match ← j.recordFields? ["enabled"] with
  | [some enabled] => enabled.asBool?
  | _ => none

namespace Config

/-- What is said of tools and categories. -/
def toolsOfJson? (j : Json) : Option (Table ToolOverride × Table Bool) := do
  match ← j.recordFields? ["overrides", "categories"] with
  | [overrides, categories] =>
    return (← Json.orDefault? (Json.asTable? ToolOverride.ofJson?) [] overrides,
      ← Json.orDefault? (Json.asTable? Category.enabledOfJson?) [] categories)
  | _ => none

/-- A configuration; its connection has no blank values. -/
def ofJson? (j : Json) : Option Config := do
  match ← j.recordFields? ["version", "preset", "prometheus", "tools"] with
  | [version, preset, connection, tools] =>
    let start : Config := {}
    let (overrides, categories) ← Json.orDefault? toolsOfJson? ([], []) tools
    let connection ← Json.orDefault? Connection.ofJson? {} connection
    return {
      version := ← Json.orDefault? Json.text? start.version version
      preset := ← Json.orDefault? Preset.ofJson? start.preset preset
      connection := connection.normalized
      overrides, categories }
  | _ => none

/-- The fields of a text that may be absent. -/
def optionalField (name : String) (value : Option Text) : List Json.Field :=
  (value.map fun t => (name.toList, Json.text t)).toList

end Config

/-- A connection as JSON; absent values are left out. -/
def Connection.toJson (c : Connection) : Json :=
  .ofFields (Config.optionalField "url" c.url ++ Config.optionalField "username" c.username
    ++ Config.optionalField "password" c.password ++ Config.optionalField "token" c.token
    ++ Config.optionalField "org_id" c.orgId)

/-- A configuration as JSON. -/
def Config.toJson (c : Config) : Json :=
  let override (o : ToolOverride) : Json :=
    .ofFields (("enabled".toList, .bool o.enabled) :: optionalField "reason" o.reason)
  let category (enabled : Bool) : Json := .ofFields [("enabled".toList, .bool enabled)]
  .ofFields [
    ("version".toList, .text c.version),
    ("preset".toList, .text c.preset.name),
    ("prometheus".toList, c.connection.toJson),
    ("tools".toList, .ofFields [
      ("overrides".toList, .ofFields (c.overrides.map fun (name, o) => (name, override o))),
      ("categories".toList, .ofFields (c.categories.map fun (name, e) => (name, category e)))])]

end MetricsBridge
