import MetricsBridge.Text.Table

/-!
# Labels
-/
namespace MetricsBridge

/-- The labels of a series: values by name. -/
abbrev Labels := Table Text

/-- The label that holds the name of the metric. -/
def Labels.metricName : Text := "__name__".toList

end MetricsBridge
