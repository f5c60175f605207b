import MetricsBridge.Config.Basic
import MetricsBridge.Yaml.Node

/-!
# Configurations as YAML

Texts are taken as they are written, so that `1.0` is a text of three characters.  A field that is
left empty reads as a mapping without entries where one is due; `~` does not.  A reference stands
for its node, but only below the top of a value of a known type.
-/
namespace MetricsBridge

namespace Yaml.Document

variable {α : Type}

/-- The ways to write nothing. -/
def isNull (t : Text) : Bool :=
  ["null", "Null", "NULL", "~"].any fun s => t == s.toList

/-- The text of a scalar. -/
def asText? (d : Document) (n : Node) : Option Text :=
  match d.follow n with
  | .scalar _ _ t => some t
  | _ => none

/-- The text of a scalar, or nothing if it is plain and says so or is empty. -/
def asOptionalText? (d : Document) (n : Node) : Option (Option Text) :=
  match d.follow n with
  | .scalar tag .plain t =>
    match tag with
    | none => some (if t = [] ∨ isNull t then none else some t)
    | some tag =>
      if tag = Reader.standardTag "null" then if isNull t then some none else none
      else some (some t)
  | .scalar _ _ t => some (some t)
  | _ => none

/-- A truth value: a plain scalar, or a literal one that is tagged so. -/
def asBool? (d : Document) (n : Node) : Option Bool :=
  let read (t : Text) : Option Bool :=
    if ["true", "True", "TRUE"].any fun s => t == s.toList then some true
    else if ["false", "False", "FALSE"].any fun s => t == s.toList then some false
    else none
  match d.follow n with
  | .scalar _ .plain t => read t
  | .scalar tag .literal t => if tag = some (Reader.standardTag "bool") then read t else none
  | _ => none

/-- The entries of a mapping, which an empty plain scalar has too. -/
def asEntries? (d : Document) (n : Node) : Option (List (Text × Node)) :=
  match d.follow n with
  | .mapping _ entries => entries.mapM fun (key, value) => (d.asText? key).map (·, value)
  | .scalar _ .plain [] => some []
  | _ => none

/-- A table, each value read by `f`; of two of one name the later counts. -/
def asTable? (d : Document) (f : Node → Option α) (n : Node) : Option (Table α) := do
  let entries ← d.asEntries? n
  return Table.ofEntries (← entries.mapM fun (name, value) => (f value).map (name, ·))

/-- The values of the fields of a record.  No field that is known may be given twice. -/
def recordFields? (d : Document) (names : List String) (n : Node) :
    Option (List (Option Node)) := do
  let entries ← d.asEntries? n
  let known := entries.filter fun (name, _) => (names.map String.toList).contains name
  if (known.map Prod.fst).Nodup then
    return names.map fun name => known.lookup name.toList
  else none

/-- The value of a field read by `f`, or `default` if it is left out. -/
def orDefault? (f : Node → Option α) (default : α) : Option Node → Option α
  | none => some default
  | some n => f n

/-- A preset: its name as a scalar, or as the tag of one that says nothing. -/
def preset? (d : Document) (n : Node) : Option Preset :=
  match d.follow n with
  | .scalar none _ t => Preset.find? t
  | .scalar (some tag) style t =>
    let name := (Text.dropStart? ['!'] tag).getD tag
    if style = .plain ∧ (t = [] ∨ isNull t) then Preset.find? name else none
  | _ => none

/-- A connection. -/
def connection? (d : Document) (n : Node) : Option Connection := do
  match ← d.recordFields? ["url", "username", "password", "token", "org_id"] n with
  | [url, username, password, token, orgId] =>
    let read := orDefault? d.asOptionalText? none
    return {
      url := ← read url
      username := ← read username
      password := ← read password
      token := ← read token
      orgId := ← read orgId }
  | _ => none

/-- What is said of a tool. -/
def override? (d : Document) (n : Node) : Option ToolOverride := do
  match ← d.recordFields? ["enabled", "reason"] n with
  | [some enabled, reason] =>
    return {
      enabled := ← d.asBool? enabled
      reason := ← orDefault? d.asOptionalText? none reason }
  | _ => none

/-- Whether a category is turned on. -/
def category? (d : Document) (n : Node) : Option Bool := do
  match ← d.recordFields? ["enabled"] n with
  | [some enabled] => d.asBool? enabled
  | _ => none

/-- What is said of tools and categories. -/
def tools? (d : Document) (n : Node) : Option (Table ToolOverride × Table Bool) := do
  match ← d.recordFields? ["overrides", "categories"] n with
  | [overrides, categories] =>
    return (← orDefault? (d.asTable? d.override?) [] overrides,
      ← orDefault? (d.asTable? d.category?) [] categories)
  | _ => none

end Yaml.Document

namespace Config

open Yaml.Document in
/-- What a document says, the blank values of its connection included. -/
def said? (d : Yaml.Document) : Option Config := do
  match ← d.recordFields? ["version", "preset", "prometheus", "tools"] d.root with
  | [version, preset, connection, tools] =>
    let start : Config := {}
    let (overrides, categories) ← orDefault? d.tools? ([], []) tools
    let connection ← orDefault? d.connection? {} connection
    let version ← orDefault? d.asText? start.version version
    let preset ← orDefault? d.preset? start.preset preset
    return { version, preset, connection, overrides, categories }
  | _ => none

/-- The configuration that a document holds; its connection has no blank values. -/
def ofDocument? (d : Yaml.Document) : Option Config :=
  (said? d).map withoutBlanks

/-- The configuration that a text writes.  A text without a document writes one where everything is
left out. -/
def ofYaml? (t : Text) : Option Config :=
  if Text.isAllBlank t then some {}
  else do
    match ← Yaml.Document.parse? t with
    | none => return {}
    | some d => ofDocument? d

end Config

end MetricsBridge
