import MetricsBridge.Text.Basic

/-!
# Categories of tools
-/
namespace MetricsBridge

/-- What a tool is about. -/
inductive Category where
  | query
  | discovery
  | alerting
  | admin
  deriving DecidableEq, Repr

namespace Category

/-- The name of a category. -/
def name : Category → Text
  | .query => "query".toList
  | .discovery => "discovery".toList
  | .alerting => "alerting".toList
  | .admin => "admin".toList

/-- All categories. -/
def all : List Category := [.query, .discovery, .alerting, .admin]

end Category

end MetricsBridge
