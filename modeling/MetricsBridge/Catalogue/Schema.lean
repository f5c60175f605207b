import MetricsBridge.Catalogue.Tool
import MetricsBridge.Json.Basic

/-!
# How tools are described to a client

A tool is an object with its name, what it does, and a schema of the object of its arguments.
-/
namespace MetricsBridge

/-- A field of an object. -/
def field (name : String) (value : Json) : Json.Field :=
  (name.toList, value)

/-- A field that holds a text. -/
def textField (name : String) (value : Text) : Json.Field :=
  field name (.text value)

/-- The schema of a parameter. -/
def Param.schema (p : Param) : Json :=
  match p.kind with
  | .text => .ofFields [textField "type" "string".toList, textField "description" p.description]
  | .texts =>
    .ofFields [textField "type" "array".toList,
      field "items" (.ofFields [textField "type" "string".toList]),
      textField "description" p.description]

namespace Tool

/-- The schema of the object of a tool's arguments. -/
def inputSchema (t : Tool) : Json :=
  .ofFields ([textField "type" "object".toList,
    field "properties" (.ofFields (t.params.map fun p => (p.name, p.schema)))]
    ++ if t.requiredNames = [] then []
      else [field "required" (.array (t.requiredNames.map .text))])

/-- The description of a tool. -/
def describe (t : Tool) : Json :=
  .ofFields [textField "name" t.name, textField "description" t.description,
    field "inputSchema" t.inputSchema]

end Tool

end MetricsBridge
