import MetricsBridge.Text.Hex
import MetricsBridge.Text.Utf8

/-!
# Percent encoding

A byte is written as `%` and two hexadecimal digits in upper case.  Reading takes a `%` that is
not followed by two digits for itself.
-/
namespace MetricsBridge.Percent

/-- The three characters that stand for a byte. -/
def encodeByte (b : UInt8) : Text :=
  ['%', hexDigitUpper (b.toNat / 16), hexDigitUpper (b.toNat % 16)]

/-- A character as it is if `keeps` says so, and otherwise the encoding of its bytes. -/
def encodeChar (keeps : Char → Bool) (c : Char) : Text :=
  if keeps c then [c] else (Utf8.encodeChar c).flatMap encodeByte

/-- A text in which only the characters that `keeps` accepts stand as they are. -/
def encode (keeps : Char → Bool) (t : Text) : Text :=
  t.flatMap (encodeChar keeps)

/-- The bytes that an encoded text stands for. -/
def decodeBytes : Text → List UInt8
  | [] => []
  | '%' :: high :: low :: rest =>
    match hexValue? high, hexValue? low with
    | some h, some l => UInt8.ofNat (16 * h + l) :: decodeBytes rest
    | _, _ => Utf8.encodeChar '%' ++ decodeBytes (high :: low :: rest)
  | c :: rest => Utf8.encodeChar c ++ decodeBytes rest

/-- The text that an encoded text stands for, if its bytes are well formed. -/
def decode? (t : Text) : Option Text :=
  Utf8.decode? (decodeBytes t)

end MetricsBridge.Percent
