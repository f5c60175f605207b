import MetricsBridge.Text.Decimal
import MetricsBridge.Text.Quoted

/-!
# What can be wrong with a JSON text

A fault and where it shows: lines are counted from one, columns are the bytes read in the line.
-/
namespace MetricsBridge.Json

/-- What is wrong with a JSON text, or with a value for the type that is asked for. -/
inductive Fault where
  | unfinishedList
  | unfinishedObject
  | unfinishedText
  | unfinishedValue
  | expectedColon
  | expectedListEnd
  | expectedObjectEnd
  | expectedWord
  | expectedValue
  | invalidEscape
  | invalidNumber
  | numberOutOfRange
  | controlCharacter
  | keyNotText
  | loneSurrogate
  | unfinishedSurrogate
  | trailingComma
  | trailingCharacters
  | tooDeep
  | wrongType (found expected : Text)
  | missingField (name : Text)
  | duplicateField (name : Text)
  | tooShort (length : Nat) (expected : Text)
  deriving DecidableEq, Repr

/-- The wording of a fault. -/
def Fault.message : Fault → Text
  | .unfinishedList => "EOF while parsing a list".toList
  | .unfinishedObject => "EOF while parsing an object".toList
  | .unfinishedText => "EOF while parsing a string".toList
  | .unfinishedValue => "EOF while parsing a value".toList
  | .expectedColon => "expected `:`".toList
  | .expectedListEnd => "expected `,` or `]`".toList
  | .expectedObjectEnd => "expected `,` or `\x7d`".toList
  | .expectedWord => "expected ident".toList
  | .expectedValue => "expected value".toList
  | .invalidEscape => "invalid escape".toList
  | .invalidNumber => "invalid number".toList
  | .numberOutOfRange => "number out of range".toList
  | .controlCharacter =>
    "control character (\\u0000-\\u001F) found while parsing a string".toList
  | .keyNotText => "key must be a string".toList
  | .loneSurrogate => "lone leading surrogate in hex escape".toList
  | .unfinishedSurrogate => "unexpected end of hex escape".toList
  | .trailingComma => "trailing comma".toList
  | .trailingCharacters => "trailing characters".toList
  | .tooDeep => "recursion limit exceeded".toList
  | .wrongType found expected =>
    "invalid type: ".toList ++ found ++ ", expected ".toList ++ expected
  | .missingField name => "missing field `".toList ++ name ++ ['\x60']
  | .duplicateField name => "duplicate field `".toList ++ name ++ ['\x60']
  | .tooShort length expected =>
    "invalid length ".toList ++ Text.ofNat length ++ ", expected ".toList ++ expected

/-- A fault and the place where it shows. -/
structure ReadError where
  fault : Fault
  line : Nat
  column : Nat
  deriving DecidableEq, Repr

/-- The wording of a fault with its place. -/
def ReadError.message (e : ReadError) : Text :=
  e.fault.message ++ " at line ".toList ++ Text.ofNat e.line ++ " column ".toList
    ++ Text.ofNat e.column

end MetricsBridge.Json
