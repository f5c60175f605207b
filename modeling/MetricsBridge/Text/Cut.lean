import MetricsBridge.Text.Basic

/-!
# Cutting a text to a number of bytes

A cut keeps whole characters: it takes the longest run of them that fits.
-/
namespace MetricsBridge.Text

/-- The longest start of the text that is made of whole characters and has at most `limit` bytes. -/
def takeBytes (limit : Nat) : Text → Text
  | [] => []
  | c :: rest =>
    if c.utf8Size ≤ limit then c :: takeBytes (limit - c.utf8Size) rest else []

/-- What stands before the last `sep`, if there is one. -/
def beforeLast (sep : Char) (t : Text) : Option Text :=
  (cutAtLast sep t).map Prod.fst

end MetricsBridge.Text
