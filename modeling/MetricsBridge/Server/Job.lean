import MetricsBridge.Catalogue.Tool
import MetricsBridge.Server.Arguments
import MetricsBridge.Server.Render
import MetricsBridge.Backend.Call

/-!
# What a tool does

A job is the call that a tool makes for given arguments, and the text it makes of the reply.
-/
namespace MetricsBridge

/-- A call, what it is called in an error text, and the text of its reply. -/
structure Job where
  Data : Type
  action : Text
  call : Except CallError (Call Data)
  render : Reply Data → Text

namespace Job

/-- The most metrics that are listed. -/
def metricCap : Nat := 100

/-- The most values of a label that are listed. -/
def labelValueCap : Nat := 100

/-- The most series that are listed. -/
def seriesCap : Nat := 50

/-- A cap that counts unless everything is asked for. -/
def capUnless (isUnlimited : Bool) (n : Nat) : Option Nat :=
  if isUnlimited then none else some n

/-- A listing with its warnings.  An empty one has a text of its own. -/
def listing (title empty noun : Text) (items : List Text) (cap : Option Nat)
    (warnings : List Text) : Text :=
  let body := if items = [] then empty
    else "Found ".toList ++ Text.ofNat items.length ++ ' ' :: title ++ ":\n".toList
      ++ Render.numberedList items cap noun
  Render.withWarnings body warnings

/-- A job that shows its data under a title. -/
def showing (action title : Text) (call : Except CallError (Call Json)) : Job where
  Data := Json
  action := action
  call := call
  render reply := title ++ '\n' :: reply.data.pretty

/-- A job that shows the result of a query. -/
def querying (action : String) (call : Except CallError (Call QueryData)) : Job where
  Data := QueryData
  action := action.toList
  call := call
  render reply := Render.queryResult reply.data.resultType reply.data.result

/-- What is shown of a target that is scraped. -/
def activeFields : List String :=
  ["discoveredLabels", "labels", "scrapePool", "scrapeUrl", "globalUrl", "lastError", "lastScrape",
   "lastScrapeDuration", "health"]

/-- What is shown of a target that is not scraped. -/
def droppedFields : List String := ["discoveredLabels"]

/-- Of each target the given fields that it has. -/
def project (targets : List Json) (fields : List String) : Json :=
  .array (targets.map fun target =>
    .ofFields (fields.filterMap fun f => (target.get? f.toList).map (f.toList, ·)))

/-- The targets: how many there are, and what is shown of each. -/
def targetsText (d : TargetsData) : Text :=
  "Targets information:\nActive targets: ".toList ++ Text.ofNat d.activeTargets.length
    ++ "\nDropped targets: ".toList ++ Text.ofNat d.droppedTargets.length
    ++ "\n\nActive Targets: ".toList ++ (project d.activeTargets activeFields).pretty
    ++ "\nDropped Targets: ".toList ++ (project d.droppedTargets droppedFields).pretty

/-- A job that lists texts. -/
def listingTexts (action title empty noun : Text) (cap : Option Nat)
    (call : Except CallError (Call (List Text))) : Job where
  Data := List Text
  action := action
  call := call
  render reply := listing title empty noun reply.data cap reply.warnings

/-- A job that lists series. -/
def listingSeries (cap : Option Nat) (call : Except CallError (Call (List Labels))) : Job where
  Data := List Labels
  action := "finding series".toList
  call := call
  render reply := listing "series".toList "No series found matching the given criteria".toList
    "series".toList (reply.data.map Render.series) cap reply.warnings

/-- A job that shows the targets. -/
def showingTargets : Job where
  Data := TargetsData
  action := "getting targets".toList
  call := .ok Call.targets
  render reply := targetsText reply.data

/-- A job that shows the configuration. -/
def showingConfig : Job where
  Data := Text
  action := "getting config".toList
  call := .ok Call.statusConfig
  render reply := "Prometheus Configuration:\n".toList ++ reply.data

end Job

open Job in
/-- The job of a tool for given arguments. -/
def Tool.job (args : Arguments) : Tool → Except ParamError Job
  | .executeQuery =>
    (args.requireText "query").map fun expr =>
      querying "executing query" (Call.query expr (args.optionalText "time") args.queryOptions)
  | .executeRangeQuery =>
    (args.requireText "query").bind fun expr =>
    (args.requireText "start").bind fun start =>
    (args.requireText "end").bind fun stop =>
    (args.requireText "step").map fun step =>
      querying "executing range query" (Call.queryRange expr start stop step args.queryOptions)
  | .queryExemplars =>
    (args.requireText "query").bind fun expr =>
    (args.requireText "start").bind fun start =>
    (args.requireText "end").map fun stop =>
      showing "querying exemplars".toList ("Exemplars for query '".toList ++ expr ++ "':".toList)
        (Call.queryExemplars expr start stop)
  | .listMetrics =>
    .ok (listingTexts "listing metrics".toList "metrics".toList "No metrics found".toList
      "metrics".toList (capUnless args.isUnlimited metricCap)
      (Call.metricNames args.selectorOptions))
  | .getMetricMetadata =>
    (args.requireText "metric").map fun metric =>
      showing ("getting metadata for metric '".toList ++ metric ++ ['\''])
        ("Metadata for metric '".toList ++ metric ++ "':".toList)
        (Call.metricMetadata metric (args.optionalText "limit"))
  | .listLabelNames =>
    .ok (listingTexts "listing label names".toList "label names".toList
      "No label names found".toList "label names".toList none
      (Call.labelNames args.selectorOptions))
  | .listLabelValues =>
    (args.requireText "label").map fun label =>
      listingTexts ("listing label values for '".toList ++ label ++ ['\''])
        ("values for label '".toList ++ label ++ ['\''])
        ("No values found for label '".toList ++ label ++ ['\'']) "values".toList
        (capUnless args.isUnlimited labelValueCap) (Call.labelValues label args.selectorOptions)
  | .findSeries =>
    (args.requireTexts "matches").map fun matchers =>
      listingSeries (capUnless args.isUnlimited seriesCap)
        (Call.series { args.selectorOptions with matchers })
  | .getTargetsMetadata =>
    .ok (showing "getting targets metadata".toList "Targets Metadata:".toList
      (Call.targetsMetadata (args.optionalText "match_target") (args.optionalText "metric")
        (args.optionalText "limit")))
  | .getAlerts => .ok (showing "getting alerts".toList "Active Alerts:".toList (.ok Call.alerts))
  | .getAlertmanagers =>
    .ok (showing "getting alert managers".toList "AlertManager Discovery:".toList
      (.ok Call.alertmanagers))
  | .getRules => .ok (showing "getting rules".toList "Prometheus Rules:".toList (.ok Call.rules))
  | .getTargets => .ok showingTargets
  | .getBuildInfo =>
    .ok (showing "getting build info".toList "Prometheus Build Information:".toList
      (.ok Call.buildInfo))
  | .getRuntimeInfo =>
    .ok (showing "getting runtime info".toList "Prometheus Runtime Information:".toList
      (.ok Call.runtimeInfo))
  | .getFlags =>
    .ok (showing "getting flags".toList "Prometheus Runtime Flags:".toList (.ok Call.flags))
  | .getConfig => .ok showingConfig
  | .getTsdbStats =>
    .ok (showing "getting TSDB stats".toList "TSDB Statistics:".toList
      (Call.tsdbStats (args.optionalText "limit")))

end MetricsBridge
