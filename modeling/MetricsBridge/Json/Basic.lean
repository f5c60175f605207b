import MetricsBridge.Number.Double
import MetricsBridge.Text.Table

/-!
# JSON values

Numbers keep whether they were written as integers.  The fields of an object are in ascending order
of their names, each name once.
-/
namespace MetricsBridge

/-- A number of a JSON value: a natural number below `2 ^ 64`, minus a positive number of at most
`2 ^ 63`, or a binary64 number. -/
inductive Numeral where
  | natural (n : Nat)
  | negative (n : Nat)
  | double (x : Double)
  deriving DecidableEq, Repr

/-- A JSON value. -/
inductive Json where
  | null
  | bool (b : Bool)
  | number (n : Numeral)
  | text (t : Text)
  | array (items : List Json)
  | object (fields : List (Text × Json))
  deriving Inhabited

namespace Json

/-- A field of an object. -/
abbrev Field := Text × Json

/-- The object with these fields; of two of one name the later counts. -/
def ofFields (fields : List Field) : Json :=
  .object (Table.ofEntries fields)

/-- The value of a field, if the value is an object that has it. -/
def get? (name : Text) : Json → Option Json
  | .object fields => Table.get? fields name
  | _ => none

/-- The text, if the value is one. -/
def text? : Json → Option Text
  | .text t => some t
  | _ => none

end Json

end MetricsBridge
