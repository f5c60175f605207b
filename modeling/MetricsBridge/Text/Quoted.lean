import MetricsBridge.Text.Hex
import MetricsBridge.Text.Invisible

/-!
# Quoted text

A text between double quotes, in which quotes, backslashes and characters that do not show are
written with a backslash.
-/
namespace MetricsBridge.Quoted

/-- A character as it stands between the quotes. -/
def encodeChar (c : Char) : Text :=
  if c = '"' then ['\\', '"']
  else if c = '\\' then ['\\', '\\']
  else if c = '\n' then ['\\', 'n']
  else if c = '\r' then ['\\', 'r']
  else if c = '\t' then ['\\', 't']
  else if c = '\x00' then ['\\', '0']
  else if isInvisible c then ['\\', 'u', '\x7b'] ++ Text.ofNatHex c.toNat ++ ['\x7d']
  else [c]

/-- A text between double quotes. -/
def encode (t : Text) : Text :=
  '"' :: t.flatMap encodeChar ++ ['"']

end MetricsBridge.Quoted
