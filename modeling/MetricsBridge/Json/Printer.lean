import MetricsBridge.Json.Basic
import MetricsBridge.Number.Shortest
import MetricsBridge.Text.Hex

/-!
# Writing JSON

In the compact form nothing stands between the tokens; in the pretty form every item has a line,
indented by two spaces for each container around it.
-/
namespace MetricsBridge

/-- A decimal with a point or in scientific form.  There is always a point or an exponent, so that
what is read back is no integer.  Decimals from `1e-5` to below `1e16` are written with a point. -/
def Decimal.render (d : Decimal) : Text :=
  let count : Int := d.digits.length
  if 0 < d.point ∧ d.point ≤ 16 then
    if count ≤ d.point then
      d.digits ++ List.replicate (d.point - count).toNat '0' ++ ".0".toList
    else d.digits.take d.point.toNat ++ '.' :: d.digits.drop d.point.toNat
  else if -5 < d.point ∧ d.point ≤ 0 then
    "0.".toList ++ List.replicate (-d.point).toNat '0' ++ d.digits
  else
    let exponent := d.point - 1
    let mantissa := match d.digits with
      | [] => []
      | [c] => [c]
      | c :: rest => c :: '.' :: rest
    mantissa ++ 'e' :: (if 0 ≤ exponent then ['+'] else []) ++ Text.ofInt exponent

/-- The shortest text of a binary64 number. -/
def Double.render (x : Double) : Text :=
  (if x.isNegative then ['-'] else []) ++ x.shortest.render

/-- The text of a number. -/
def Numeral.render : Numeral → Text
  | .natural n => Text.ofNat n
  | .negative n => '-' :: Text.ofNat n
  | .double x => x.render

namespace Json

/-- A character inside a quoted text. -/
def escapeChar (c : Char) : Text :=
  if c = '"' then ['\\', '"']
  else if c = '\\' then ['\\', '\\']
  else if c = '\n' then ['\\', 'n']
  else if c = '\r' then ['\\', 'r']
  else if c = '\t' then ['\\', 't']
  else if c = '\x08' then ['\\', 'b']
  else if c = '\x0c' then ['\\', 'f']
  else if c.toNat < 0x20 then
    ['\\', 'u', '0', '0', hexDigit (c.toNat / 16), hexDigit (c.toNat % 16)]
  else [c]

/-- A text between double quotes. -/
def quote (t : Text) : Text :=
  '"' :: t.flatMap escapeChar ++ ['"']

mutual

/-- The compact form. -/
def compact : Json → Text
  | .null => "null".toList
  | .bool true => "true".toList
  | .bool false => "false".toList
  | .number n => n.render
  | .text t => quote t
  | .array items => '[' :: compactItems items ++ [']']
  | .object fields => '\x7b' :: compactFields fields ++ ['\x7d']

/-- The items of an array in compact form. -/
def compactItems : List Json → Text
  | [] => []
  | [item] => compact item
  | item :: rest => compact item ++ ',' :: compactItems rest

/-- The fields of an object in compact form. -/
def compactFields : List (Text × Json) → Text
  | [] => []
  | [(name, value)] => quote name ++ ':' :: compact value
  | (name, value) :: rest => quote name ++ ':' :: compact value ++ ',' :: compactFields rest

end

/-- The start of a line inside so many containers. -/
def newline (depth : Nat) : Text :=
  '\n' :: List.replicate (2 * depth) ' '

mutual

/-- The pretty form inside `depth` containers. -/
def prettyAt (depth : Nat) : Json → Text
  | .null => "null".toList
  | .bool true => "true".toList
  | .bool false => "false".toList
  | .number n => n.render
  | .text t => quote t
  | .array [] => "[]".toList
  | .array items => '[' :: prettyItems (depth + 1) items ++ newline depth ++ [']']
  | .object [] => ['\x7b', '\x7d']
  | .object fields => '\x7b' :: prettyFields (depth + 1) fields ++ newline depth ++ ['\x7d']

/-- The items of an array, each on a line. -/
def prettyItems (depth : Nat) : List Json → Text
  | [] => []
  | [item] => newline depth ++ prettyAt depth item
  | item :: rest => newline depth ++ prettyAt depth item ++ ',' :: prettyItems depth rest

/-- The fields of an object, each on a line. -/
def prettyFields (depth : Nat) : List (Text × Json) → Text
  | [] => []
  | [(name, value)] => newline depth ++ quote name ++ ": ".toList ++ prettyAt depth value
  | (name, value) :: rest =>
    newline depth ++ quote name ++ ": ".toList ++ prettyAt depth value
      ++ ',' :: prettyFields depth rest

end

/-- The pretty form. -/
def pretty (j : Json) : Text :=
  prettyAt 0 j

end Json

end MetricsBridge
