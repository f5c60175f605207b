import MetricsBridge.Text.Form
import MetricsBridge.Time.Span
import MetricsBridge.Time.Timestamp
import MetricsBridge.Backend.Error

/-!
# Optional parts of a call

Each option becomes a pair of the query text.  Times, spans and limits are checked, so that a value
which makes no sense is refused before anything is sent.
-/
namespace MetricsBridge

/-- A time in Unix seconds. -/
def checkTime (input : Text) : Except CallError Text :=
  match Timestamp.normalize? input with
  | some t => .ok t
  | none => .error (.invalidTime input)

/-- A span of time. -/
def checkSpan (input : Text) : Except CallError Span :=
  match Span.parse? input with
  | some span => .ok span
  | none => .error (.invalidDuration input)

/-- The step between the points of a range, which is longer than nothing. -/
def checkStep (input : Text) : Except CallError Text :=
  match Span.step? input with
  | some step => .ok step
  | none => .error (.invalidDuration input)

/-- A limit: a natural number below `2 ^ 64`. -/
def checkLimit (input : Text) : Except CallError Nat :=
  match Text.toNatBelow? (Nat.pow 2 64) (Text.trim input) with
  | some n => .ok n
  | none => .error (.invalidLimit input)

/-- A pair of the query text for an option that is given. -/
def optionPair (name : String) (value : Option Text) (check : Text → Except CallError Text) :
    Except CallError (List Form.Pair) :=
  match value with
  | none => .ok []
  | some v => (check v).map fun checked => [(name.toList, checked)]

/-- A limit as it is sent. -/
def limitText (input : Text) : Except CallError Text :=
  (checkLimit input).map Text.ofNat

/-- A span as it is sent: as it was given, without the blanks around it. -/
def spanText (input : Text) : Except CallError Text :=
  (checkSpan input).map fun _ => Text.trim input

/-- What instant and range queries may be given. -/
structure QueryOptions where
  timeout : Option Text := none
  limit : Option Text := none
  stats : Option Text := none
  lookbackDelta : Option Text := none
  deriving DecidableEq, Repr

namespace QueryOptions

/-- What is added to a query's own timeout, so that the answering server can report first. -/
def grace : Span := Span.ofSeconds 5

/-- How long to wait for the answer to a query. -/
def patience (o : QueryOptions) (default : Span) : Except CallError Span :=
  match o.timeout with
  | none => .ok default
  | some t => do
    let span ← checkSpan t
    match span.add? grace with
    | some longer => .ok (default.longer longer)
    | none => .error (.invalidDuration t)

/-- The pairs of the options that are given. -/
def pairs (o : QueryOptions) : Except CallError (List Form.Pair) := do
  let timeout ← optionPair "timeout" o.timeout spanText
  let limit ← optionPair "limit" o.limit limitText
  let stats ← optionPair "stats" o.stats .ok
  let lookback ← optionPair "lookback_delta" o.lookbackDelta spanText
  return timeout ++ limit ++ stats ++ lookback

end QueryOptions

/-- What listings of labels and series may be given. -/
structure SelectorOptions where
  startTime : Option Text := none
  endTime : Option Text := none
  matchers : List Text := []
  limit : Option Text := none
  deriving DecidableEq, Repr

/-- The pairs of the options that are given; each matcher has one of its own. -/
def SelectorOptions.pairs (o : SelectorOptions) : Except CallError (List Form.Pair) := do
  let start ← optionPair "start" o.startTime checkTime
  let stop ← optionPair "end" o.endTime checkTime
  let limit ← optionPair "limit" o.limit limitText
  return start ++ stop ++ o.matchers.map (fun m => ("match[]".toList, m)) ++ limit

end MetricsBridge
