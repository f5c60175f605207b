import MetricsBridge.Catalogue.Category
import MetricsBridge.Text.Blank

/-!
# Presets

A preset turns on the tools of some categories.
-/
namespace MetricsBridge

/-- A choice of categories. -/
inductive Preset where
  | minimal
  | standard
  | full
  deriving DecidableEq, Repr

namespace Preset

/-- The name of a preset. -/
def name : Preset → Text
  | .minimal => "minimal".toList
  | .standard => "standard".toList
  | .full => "full".toList

/-- The name of a preset as a title. -/
def title : Preset → Text
  | .minimal => "Minimal".toList
  | .standard => "Standard".toList
  | .full => "Full".toList

/-- What a preset is for. -/
def description : Preset → Text
  | .minimal => "PromQL queries and metric discovery".toList
  | .standard => "Queries, discovery, alerts and recording/alerting rules".toList
  | .full => "Every tool, including targets, server status and TSDB stats".toList

/-- The categories that a preset turns on. -/
def categories : Preset → List Category
  | .minimal => [.query, .discovery]
  | .standard => [.query, .discovery, .alerting]
  | .full => Category.all

/-- All presets. -/
def all : List Preset := [.minimal, .standard, .full]

/-- The preset with a name. -/
def find? (name : Text) : Option Preset :=
  all.find? fun p => p.name == name

/-- The preset with a name, in either case and with blanks around it. -/
def parse? (t : Text) : Option Preset :=
  find? (Text.toLowerAscii (Text.trim t))

end Preset

end MetricsBridge
