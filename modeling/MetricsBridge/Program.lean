import MetricsBridge.Text.Basic

/-!
# The program's name and version
-/
namespace MetricsBridge.Program

/-- The name of the program. -/
def name : Text := "mcp-prometheus".toList

/-- The version of the program. -/
def version : Text := "0.1.0".toList

/-- How the program names itself to the servers that it asks. -/
def agent : Text := name ++ '/' :: version

/-- The name and the version. -/
def versionLine : Text := name ++ ' ' :: version

end MetricsBridge.Program
