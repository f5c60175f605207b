import MetricsBridge.Text.Percent

/-!
# Form encoding

Names and values as `application/x-www-form-urlencoded` writes them: a space is a plus sign, and
only letters, digits and `*-._` stand for themselves.
-/
namespace MetricsBridge.Form

/-- A name and its value. -/
abbrev Pair := Text × Text

/-- The characters that stand for themselves. -/
def isPlain (c : Char) : Bool :=
  c.isAlphanum || c == '*' || c == '-' || c == '.' || c == '_'

/-- One character in encoded form. -/
def encodeChar (c : Char) : Text :=
  if c = ' ' then ['+'] else Percent.encodeChar isPlain c

/-- A name or a value in encoded form. -/
def encode (t : Text) : Text :=
  t.flatMap encodeChar

/-- A pair in encoded form. -/
def encodePair (p : Pair) : Text :=
  encode p.1 ++ '=' :: encode p.2

/-- Pairs in encoded form, in order. -/
def serialize (pairs : List Pair) : Text :=
  Text.joinWith ['&'] (pairs.map encodePair)

/-- The name or value that an encoded text stands for. -/
def decode (t : Text) : Text :=
  Utf8.decodeLossy (Percent.decodeBytes (t.map fun c => if c = '+' then ' ' else c))

/-- The pair that one piece stands for; without `=` its value is empty. -/
def decodePair (piece : Text) : Pair :=
  match Text.cutAt '=' piece with
  | some (name, value) => (decode name, decode value)
  | none => (decode piece, [])

/-- The pairs of an encoded text, in order.  Empty pieces count for nothing. -/
def parse (t : Text) : List Pair :=
  ((Text.splitOn '&' t).filter (· != [])).map decodePair

end MetricsBridge.Form
