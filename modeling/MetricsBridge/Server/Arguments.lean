import MetricsBridge.Json.Printer
import MetricsBridge.Backend.Options

/-!
# Arguments of a tool call

Arguments are looked up by name.  Clients are not strict about types, so that a number or a truth
value counts as the text that writes it, where a text is optional.
-/
namespace MetricsBridge

/-- The arguments of a tool call: values by name. -/
abbrev Arguments := Table Json

/-- A parameter that has to be given is not, or is of the wrong type. -/
inductive ParamError where
  | missingText (name : Text)
  | missingTexts (name : Text)
  deriving DecidableEq, Repr

/-- The wording of an error. -/
def ParamError.message : ParamError → Text
  | .missingText name => name ++ " parameter is required and must be a string".toList
  | .missingTexts name => name ++ " parameter is required and must be an array of strings".toList

namespace Arguments

/-- A text that has to be given and must not be empty. -/
def requireText (args : Arguments) (name : String) : Except ParamError Text :=
  match args.get? name.toList with
  | some (.text (c :: rest)) => .ok (c :: rest)
  | _ => .error (.missingText name.toList)

/-- The text that a value counts as, if it is optional.  An empty text counts as none. -/
def looseText? : Json → Option Text
  | .text [] => none
  | .text t => some t
  | .number n => some n.render
  | .bool true => some "true".toList
  | .bool false => some "false".toList
  | _ => none

/-- A text that may be left out. -/
def optionalText (args : Arguments) (name : String) : Option Text :=
  (args.get? name.toList).bind looseText?

/-- The texts among the items of an array. -/
def texts (args : Arguments) (name : String) : List Text :=
  match args.get? name.toList with
  | some (.array items) => items.filterMap Json.text?
  | _ => []

/-- Texts of which there has to be one. -/
def requireTexts (args : Arguments) (name : String) : Except ParamError (List Text) :=
  match args.texts name with
  | [] => .error (.missingTexts name.toList)
  | t :: rest => .ok (t :: rest)

/-- Everything is asked for. -/
def isUnlimited (args : Arguments) : Bool :=
  match args.get? "unlimited".toList with
  | some (.bool b) => b
  | some (.text t) => Text.sameIgnoringCase t "true".toList
  | _ => false

/-- The server that is asked for. -/
def url (args : Arguments) : Option Text := args.optionalText "prometheus_url"

/-- The tenant that is asked for. -/
def orgId (args : Arguments) : Option Text := args.optionalText "org_id"

/-- The options of a query. -/
def queryOptions (args : Arguments) : QueryOptions where
  timeout := args.optionalText "timeout"
  limit := args.optionalText "limit"
  stats := args.optionalText "stats"
  lookbackDelta := args.optionalText "lookback_delta"

/-- The options of a listing. -/
def selectorOptions (args : Arguments) : SelectorOptions where
  startTime := args.optionalText "start_time"
  endTime := args.optionalText "end_time"
  matchers := args.texts "matches"
  limit := args.optionalText "limit"

end Arguments

end MetricsBridge
