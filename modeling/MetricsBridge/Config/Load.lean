import MetricsBridge.Config.OfYaml
import MetricsBridge.Text.Utf8

/-!
# Loading the configuration

A file that is asked for has to be there; the usual file is read if there is one.  What the
environment says counts before what the file says.
-/
namespace MetricsBridge

/-- What stands under the name of a file. -/
inductive FileContent where
  | missing
  | directory
  | bytes (content : List UInt8)
  deriving DecidableEq, Repr

namespace Config

/-- The configuration that a file holds. -/
def ofFile : FileContent → Except ConfigError Config
  | .missing => .error (.unreadable "No such file or directory (os error 2)".toList)
  | .directory => .error (.unreadable "Is a directory (os error 21)".toList)
  | .bytes content =>
    match Utf8.decode? content with
    | none => .error (.unreadable "stream did not contain valid UTF-8".toList)
    | some t =>
      match ofYaml? t with
      | some c => .ok c
      | none => .error .illFormed

/-- The configuration of the file that is asked for, or else of the usual one, if there is one. -/
def fromFiles (asked : Option FileContent) (usual : FileContent) : Except ConfigError Config :=
  match asked with
  | some file => ofFile file
  | none =>
    match usual with
    | .bytes content => ofFile (.bytes content)
    | _ => .ok {}

/-- The configuration that counts. -/
def load (asked : Option FileContent) (usual : FileContent) (env : Environment) :
    Except ConfigError Config := do
  (← fromFiles asked usual).overlay env

/-- The variables that count. -/
def variableNames : List String :=
  ["PROMETHEUS_URL", "PROMETHEUS_USERNAME", "PROMETHEUS_PASSWORD", "PROMETHEUS_TOKEN",
   "PROMETHEUS_ORGID", "MCP_PROMETHEUS_PRESET", "XDG_CONFIG_HOME", "HOME"]

/-- The directory of the user, if the environment names none. -/
def fallbackHome : Text := "/root".toList

/-- The path of a file below a directory. -/
def below (directory : Text) (name : String) : Text :=
  directory ++ (if directory.getLast? = some '/' then [] else ['/']) ++ name.toList

/-- Where the usual file is. -/
def usualPath (env : Environment) : Text :=
  let directory := match env "XDG_CONFIG_HOME".toList with
    | some ('/' :: rest) => '/' :: rest
    | _ =>
      let home := match env "HOME".toList with
        | some (c :: rest) => c :: rest
        | _ => fallbackHome
      below home ".config"
  below (below directory "mcp-prometheus") "config.yaml"

end Config

end MetricsBridge
