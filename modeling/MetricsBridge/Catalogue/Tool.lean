import MetricsBridge.Catalogue.Category

/-!
# Tools

The tools in the order in which they are listed, and what each of them may be given.
-/
namespace MetricsBridge

/-- A tool. -/
inductive Tool where
  | executeQuery
  | executeRangeQuery
  | queryExemplars
  | listMetrics
  | getMetricMetadata
  | listLabelNames
  | listLabelValues
  | findSeries
  | getTargetsMetadata
  | getAlerts
  | getAlertmanagers
  | getRules
  | getTargets
  | getBuildInfo
  | getRuntimeInfo
  | getFlags
  | getConfig
  | getTsdbStats
  deriving DecidableEq, Repr

/-- What a parameter holds: a text, or a list of texts. -/
inductive ParamKind where
  | text
  | texts
  deriving DecidableEq, Repr

/-- A parameter of a tool. -/
structure Param where
  name : Text
  description : Text
  kind : ParamKind
  isRequired : Bool
  deriving DecidableEq, Repr

namespace Param

/-- A text that may be left out. -/
def optional (name description : String) : Param :=
  ⟨name.toList, description.toList, .text, false⟩

/-- A text that has to be given. -/
def required (name description : String) : Param :=
  ⟨name.toList, description.toList, .text, true⟩

/-- A list of texts. -/
def texts (name description : String) (isRequired : Bool) : Param :=
  ⟨name.toList, description.toList, .texts, isRequired⟩

/-- The parameters that every tool has in front: where to ask, and for which tenant. -/
def connection : List Param :=
  [optional "prometheus_url" ("Prometheus server URL (e.g., 'http://localhost:8080/prometheus'). "
      ++ "Ignored when PROMETHEUS_URL is set"),
   optional "org_id"
      "Organization ID for multi-tenant Prometheus. Ignored when PROMETHEUS_ORGID is set"]

/-- The parameter that every tool has at the end: whether to give everything. -/
def unlimited : Param :=
  optional "unlimited"
    "Set to 'true' to get unlimited output (WARNING: may be very large and impact performance)"

/-- The options of a query. -/
def queryOptions : List Param :=
  [optional "timeout" "Query timeout (e.g., '30s', '1m', '5m')",
   optional "limit" "Maximum number of returned entries",
   optional "stats" "Include query statistics: 'all'",
   optional "lookback_delta" "Query lookback delta (e.g., '5m')"]

/-- The bounds in time of a listing. -/
def timeFilter : List Param :=
  [optional "start_time" "Start time for filtering (RFC3339 or Unix timestamp)",
   optional "end_time" "End time for filtering (RFC3339 or Unix timestamp)"]

/-- The matchers of a listing. -/
def labelMatchers : Param :=
  texts "matches" "Array of label matchers to filter series" false

end Param

namespace Tool

/-- All tools in the order of the listing. -/
def all : List Tool :=
  [.executeQuery, .executeRangeQuery, .queryExemplars, .listMetrics, .getMetricMetadata,
   .listLabelNames, .listLabelValues, .findSeries, .getTargetsMetadata, .getAlerts,
   .getAlertmanagers, .getRules, .getTargets, .getBuildInfo, .getRuntimeInfo, .getFlags, .getConfig,
   .getTsdbStats]

/-- The name by which a tool is called. -/
def name : Tool → Text
  | .executeQuery => "execute_query".toList
  | .executeRangeQuery => "execute_range_query".toList
  | .queryExemplars => "query_exemplars".toList
  | .listMetrics => "list_metrics".toList
  | .getMetricMetadata => "get_metric_metadata".toList
  | .listLabelNames => "list_label_names".toList
  | .listLabelValues => "list_label_values".toList
  | .findSeries => "find_series".toList
  | .getTargetsMetadata => "get_targets_metadata".toList
  | .getAlerts => "get_alerts".toList
  | .getAlertmanagers => "get_alertmanagers".toList
  | .getRules => "get_rules".toList
  | .getTargets => "get_targets".toList
  | .getBuildInfo => "get_build_info".toList
  | .getRuntimeInfo => "get_runtime_info".toList
  | .getFlags => "get_flags".toList
  | .getConfig => "get_config".toList
  | .getTsdbStats => "get_tsdb_stats".toList

/-- What a tool is about. -/
def category : Tool → Category
  | .executeQuery | .executeRangeQuery | .queryExemplars => .query
  | .listMetrics | .getMetricMetadata | .listLabelNames | .listLabelValues | .findSeries
  | .getTargetsMetadata => .discovery
  | .getAlerts | .getAlertmanagers | .getRules => .alerting
  | .getTargets | .getBuildInfo | .getRuntimeInfo | .getFlags | .getConfig | .getTsdbStats => .admin

/-- What a tool does, in a sentence. -/
def description : Tool → Text
  | .executeQuery => "Execute a PromQL instant query against Prometheus".toList
  | .executeRangeQuery =>
    "Execute a PromQL range query with start time, end time, and step interval".toList
  | .queryExemplars => "Query exemplars for traces".toList
  | .listMetrics => "List all available metrics in Prometheus".toList
  | .getMetricMetadata => "Get metadata for a specific metric".toList
  | .listLabelNames => "Get all available label names".toList
  | .listLabelValues => "Get values for a specific label".toList
  | .findSeries => "Find series by label matchers".toList
  | .getTargetsMetadata => "Get metadata about metrics from specific targets".toList
  | .getAlerts => "Get active alerts".toList
  | .getAlertmanagers => "Get AlertManager discovery information".toList
  | .getRules => "Get recording and alerting rules".toList
  | .getTargets => "Get information about all scrape targets".toList
  | .getBuildInfo => "Get build information about the Prometheus server".toList
  | .getRuntimeInfo => "Get runtime information about the Prometheus server".toList
  | .getFlags => "Get runtime flags that Prometheus was launched with".toList
  | .getConfig => "Get Prometheus configuration".toList
  | .getTsdbStats => "Get TSDB cardinality statistics".toList

open Param in
/-- The parameters of a tool that not every tool has. -/
def ownParams : Tool → List Param
  | .executeQuery =>
    [required "query" "PromQL query string",
     optional "time" "Optional RFC3339 or Unix timestamp (default: current time)"] ++ queryOptions
  | .executeRangeQuery =>
    [required "query" "PromQL query string",
     required "start" "Start time as RFC3339 or Unix timestamp",
     required "end" "End time as RFC3339 or Unix timestamp",
     required "step" "Query resolution step width (e.g., '15s', '1m', '1h')"] ++ queryOptions
  | .queryExemplars =>
    [required "query" "PromQL query string to find exemplars for",
     required "start" "Start time as RFC3339 or Unix timestamp",
     required "end" "End time as RFC3339 or Unix timestamp"]
  | .listMetrics => timeFilter ++ [labelMatchers]
  | .getMetricMetadata =>
    [required "metric" "The name of the metric to retrieve metadata for",
     optional "limit" "Maximum number of metadata entries to return"]
  | .listLabelNames =>
    timeFilter ++ [labelMatchers, optional "limit" "Maximum number of label names to return"]
  | .listLabelValues =>
    timeFilter ++ [labelMatchers, required "label" "The label name to get values for",
      optional "limit" "Maximum number of label values to return"]
  | .findSeries =>
    timeFilter ++
      [texts "matches" ("Array of label matchers (e.g., ['\x7bjob=\"prometheus\"\x7d', "
          ++ "'\x7b__name__=~\"http_.*\"\x7d'])") true,
       optional "limit" "Maximum number of series to return"]
  | .getTargetsMetadata =>
    [optional "match_target" "Target matcher to filter targets",
     optional "metric" "Metric name to filter metadata for",
     optional "limit" "Maximum number of metadata entries to return"]
  | .getTsdbStats => [optional "limit" "Maximum number of stats entries to return"]
  | .getAlerts | .getAlertmanagers | .getRules | .getTargets | .getBuildInfo | .getRuntimeInfo
  | .getFlags | .getConfig => []

/-- The parameters of a tool. -/
def params (t : Tool) : List Param :=
  Param.connection ++ t.ownParams ++ [Param.unlimited]

/-- The names of the parameters that have to be given. -/
def requiredNames (t : Tool) : List Text :=
  (t.params.filter Param.isRequired).map Param.name

/-- The tool with a name. -/
def find? (name : Text) : Option Tool :=
  all.find? fun t => t.name == name

end Tool

end MetricsBridge
