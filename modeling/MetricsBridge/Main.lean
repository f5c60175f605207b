import MetricsBridge.CommandLine.Startup
import MetricsBridge.Json.Reader
import MetricsBridge.Session.Basic

/-!
# The program

The outer layer: it reads the words, the environment, the configuration and the lines of a client,
and prints what the library makes of them.  It has no network of its own: a request to the metrics
server does not get there, and the transports over HTTP are left to a host that can listen.
-/
open MetricsBridge

namespace MetricsBridge.Main

/-- The environment, of which only the variables that count are read. -/
def readEnvironment : IO Environment := do
  let entries ← Config.variableNames.mapM fun name => do
    return (name.toList, (← IO.getEnv name).map String.toList)
  return fun name => (entries.lookup name).join

/-- What stands under the name of a file. -/
def readFile (path : Text) : IO FileContent := do
  try
    return .bytes (← IO.FS.readBinFile (String.ofList path)).toList
  catch
    | .noFileOrDirectory .. => return .missing
    | _ => return .directory

/-- The configuration for the options. -/
def loadConfig (o : ServeOptions) : IO (Except ConfigError Config) := do
  let env ← readEnvironment
  let asked ← o.configPath.mapM readFile
  let usual ← if asked.isSome then pure .missing else readFile (Config.usualPath env)
  return Config.load asked usual env

/-- Serves one client, a message a line, until its lines or the session end. -/
partial def serveLines (c : Config) (input output : IO.FS.Stream) (s : Session) : IO Unit := do
  let line ← input.getLine
  if line.isEmpty || s.phase == .ended then return
  match (Json.parse line.toList).toOption.bind Message.ofJson? with
  | none => serveLines c input output s
  | some m =>
    let (s, _, responses) := s.deliver c .offline m
    for r in responses do
      output.putStrLn (String.ofList r.toJson.compact)
    output.flush
    serveLines c input output s

/-- Runs the server that the options ask for. -/
def serve (o : ServeOptions) : IO UInt32 := do
  match o.start (← loadConfig o) with
  | .error e =>
    IO.eprintln (String.ofList e.message)
    return 1
  | .ok (.stdio c) =>
    serveLines c (← IO.getStdin) (← IO.getStdout) {}
    return 0
  | .ok (.eventStream ..) | .ok (.streamable ..) =>
    IO.eprintln "this program cannot listen; use the stdio transport"
    return 1

end MetricsBridge.Main

def main (words : List String) : IO UInt32 := do
  match Command.read (words.map String.toList) with
  | .ok .version =>
    IO.println (String.ofList Program.versionLine)
    return 0
  | .ok (.serve o) => Main.serve o
  | .error .showVersion =>
    IO.println (String.ofList Program.versionLine)
    return 0
  | .error .showHelp =>
    IO.println "usage: mcp-prometheus serve [options] | version"
    return 0
  | .error _ =>
    IO.eprintln "usage: mcp-prometheus serve [options] | version"
    return 2
