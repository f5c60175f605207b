import MetricsBridge.Number.Literal
import MetricsBridge.Text.Blank
import MetricsBridge.Time.Rfc3339

/-!
# Timestamps

A point in time is given as an RFC 3339 timestamp or as Unix seconds, and sent on as Unix seconds.
-/
namespace MetricsBridge.Timestamp

/-- An instant in Unix seconds, with its milliseconds if there are any. -/
def render (i : Rfc3339.Instant) : Text :=
  let millis := i.nanos / 1000000
  if millis = 0 then Text.ofInt i.seconds
  else Text.ofInt i.seconds ++ '.' :: Text.ofNatPadded 3 millis

/-- The Unix seconds that a text means.  A number is passed on as it was written, but for blanks
around it. -/
def normalize? (input : Text) : Option Text :=
  let t := Text.trim input
  match Rfc3339.parse? t with
  | some instant => some (render instant)
  | none => if ((Literal.parse? t).bind Literal.toDouble?).isSome then some t else none

end MetricsBridge.Timestamp
