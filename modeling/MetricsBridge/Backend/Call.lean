import MetricsBridge.Backend.Envelope
import MetricsBridge.Backend.Labels
import MetricsBridge.Backend.Options

/-!
# Calls of the metrics API

A call is an endpoint below `api/v1`, the pairs of its query, how long to wait, and the shape of the
data it brings.  Making one checks its arguments in the order of the pairs.
-/
namespace MetricsBridge

/-- A call that brings data of type `α`. -/
structure Call (α : Type) where
  segments : List Text
  pairs : List Form.Pair
  patience : Span
  shape : Json.Decoder α

/-- The result of an instant or range query. -/
structure QueryData where
  resultType : Text
  result : Json

/-- The targets that are scraped and those that are not. -/
structure TargetsData where
  activeTargets : List Json
  droppedTargets : List Json

namespace Call

/-- How long to wait, if nothing else is said. -/
def usualPatience : Span := Span.ofSeconds 30

/-- How long to wait for a range query. -/
def rangePatience : Span := Span.ofSeconds 60

/-! ### Shapes -/

section Shapes

open Json.Decoder

/-- The data of a query. -/
def queryData : Json.Decoder QueryData := fun steps depth cur => do
  let entries : List (Entry (Option Text × Option Json)) :=
    [entry "resultType" true Prod.fst (fun s v => (some v, s.2)) text,
     entry "result" false Prod.snd (fun s v => (s.1, some v)) json]
  let ((kind, result), cur) ← record "QueryData" entries (none, none) steps depth cur
  return (⟨kind.getD [], result.getD .null⟩, cur)

/-- The data of the targets. -/
def targetsData : Json.Decoder TargetsData := fun steps depth cur => do
  let entries : List (Entry (Option (List Json) × Option (List Json))) :=
    [entry "activeTargets" false Prod.fst (fun s v => (some v, s.2)) (list json),
     entry "droppedTargets" false Prod.snd (fun s v => (s.1, some v)) (list json)]
  let ((active, dropped), cur) ← record "TargetsData" entries (none, none) steps depth cur
  return (⟨active.getD [], dropped.getD []⟩, cur)

/-- The configuration, which is a text. -/
def configData : Json.Decoder Text := fun steps depth cur => do
  let entries : List (Entry (Option Text)) := [entry "yaml" false id (fun _ v => some v) text]
  let (yaml, cur) ← record "ConfigData" entries none steps depth cur
  return (yaml.getD [], cur)

/-- The labels of one series. -/
def seriesLabels : Json.Decoder Labels := fun steps depth cur => do
  let (entries, cur) ← texts steps depth cur
  return (Table.ofEntries entries, cur)

end Shapes

/-! ### Queries -/

/-- The value of an expression at a time, or now. -/
def query (expr : Text) (time : Option Text) (options : QueryOptions) :
    Except CallError (Call QueryData) := do
  let time ← optionPair "time" time checkTime
  let options' ← options.pairs
  return {
    segments := ["query".toList]
    pairs := ("query".toList, expr) :: time ++ options'
    patience := ← options.patience usualPatience
    shape := queryData }

/-- The values of an expression over a range of time. -/
def queryRange (expr start stop step : Text) (options : QueryOptions) :
    Except CallError (Call QueryData) := do
  let start ← checkTime start
  let stop ← checkTime stop
  let step ← checkStep step
  let options' ← options.pairs
  return {
    segments := ["query_range".toList]
    pairs := ("query".toList, expr) :: ("start".toList, start) :: ("end".toList, stop)
      :: ("step".toList, step) :: options'
    patience := ← options.patience rangePatience
    shape := queryData }

/-- The exemplars of an expression over a range of time. -/
def queryExemplars (expr start stop : Text) : Except CallError (Call Json) := do
  let start ← checkTime start
  let stop ← checkTime stop
  return {
    segments := ["query_exemplars".toList]
    pairs := [("query".toList, expr), ("start".toList, start), ("end".toList, stop)]
    patience := usualPatience
    shape := Json.Decoder.json }

/-! ### Metrics, labels and series -/

/-- The names of the labels. -/
def labelNames (options : SelectorOptions) : Except CallError (Call (List Text)) := do
  return {
    segments := ["labels".toList]
    pairs := ← options.pairs
    patience := usualPatience
    shape := Json.Decoder.list Json.Decoder.text }

/-- The values of a label. -/
def labelValues (label : Text) (options : SelectorOptions) :
    Except CallError (Call (List Text)) := do
  return {
    segments := ["label".toList, label, "values".toList]
    pairs := ← options.pairs
    patience := usualPatience
    shape := Json.Decoder.list Json.Decoder.text }

/-- The names of the metrics, which are the values of a label. -/
def metricNames (options : SelectorOptions) : Except CallError (Call (List Text)) :=
  labelValues Labels.metricName options

/-- The series that the matchers select. -/
def series (options : SelectorOptions) : Except CallError (Call (List Labels)) := do
  return {
    segments := ["series".toList]
    pairs := ← options.pairs
    patience := usualPatience
    shape := Json.Decoder.list seriesLabels }

/-- A call that brings any data, with options that need no check but for a limit. -/
def lookUp (segments : List String) (named : List (String × Option Text)) (limit : Option Text) :
    Except CallError (Call Json) := do
  let limit ← optionPair "limit" limit limitText
  return {
    segments := segments.map String.toList
    pairs := named.filterMap (fun (name, value) => value.map fun v => (name.toList, v)) ++ limit
    patience := usualPatience
    shape := Json.Decoder.json }

/-- What is known of a metric. -/
def metricMetadata (metric : Text) (limit : Option Text) : Except CallError (Call Json) :=
  lookUp ["metadata"] [("metric", some metric)] limit

/-- What targets say of their metrics. -/
def targetsMetadata (target metric limit : Option Text) : Except CallError (Call Json) :=
  lookUp ["targets", "metadata"] [("match_target", target), ("metric", metric)] limit

/-! ### Targets, alerts and the state of the server -/

/-- A call without arguments. -/
def plain {α : Type} (segments : List String) (shape : Json.Decoder α) : Call α where
  segments := segments.map String.toList
  pairs := []
  patience := usualPatience
  shape := shape

/-- The targets. -/
def targets : Call TargetsData := plain ["targets"] targetsData

/-- The active alerts. -/
def alerts : Call Json := plain ["alerts"] Json.Decoder.json

/-- The managers that alerts are sent to. -/
def alertmanagers : Call Json := plain ["alertmanagers"] Json.Decoder.json

/-- The rules. -/
def rules : Call Json := plain ["rules"] Json.Decoder.json

/-- How the server was built. -/
def buildInfo : Call Json := plain ["status", "buildinfo"] Json.Decoder.json

/-- How the server is doing. -/
def runtimeInfo : Call Json := plain ["status", "runtimeinfo"] Json.Decoder.json

/-- How the server was started. -/
def flags : Call Json := plain ["status", "flags"] Json.Decoder.json

/-- How the server is configured. -/
def statusConfig : Call Text := plain ["status", "config"] configData

/-- What the server stores. -/
def tsdbStats (limit : Option Text) : Except CallError (Call Json) :=
  lookUp ["status", "tsdb"] [] limit

end Call

end MetricsBridge
