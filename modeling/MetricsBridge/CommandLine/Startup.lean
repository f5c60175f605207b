import MetricsBridge.CommandLine.Basic
import MetricsBridge.Config.Load
import MetricsBridge.Session.Endpoint
import MetricsBridge.Text.Decimal

/-!
# Starting the server

The configuration is loaded first; a transport over HTTP then needs an address that can be bound.
-/
namespace MetricsBridge

/-- What the log shows, by whether more output is asked for. -/
def defaultFilter (debug : Bool) : Text :=
  if debug then "mcp_prometheus=debug".toList else "mcp_prometheus=info".toList

/-- Why an address cannot be bound. -/
inductive AddressFault where
  | noPortNumber
  | badPortNumber
  deriving DecidableEq, Repr

/-- The wording of a fault. -/
def AddressFault.message : AddressFault → Text
  | .noPortNumber => "invalid socket address".toList
  | .badPortNumber => "invalid port value".toList

/-- An address to be bound: a host and the number of one of its sockets. -/
structure Address where
  host : Text
  portNumber : Nat
  deriving DecidableEq, Repr

/-- The address that a text in normal form writes. -/
def Address.parse (t : Text) : Except AddressFault Address :=
  match Text.cutAtLast ':' t with
  | none => .error .noPortNumber
  | some (host, digits) =>
    match Text.toNatBelow? (Nat.pow 2 16) digits with
    | some n => .ok ⟨host, n⟩
    | none => .error .badPortNumber

/-- Why the server does not start. -/
inductive StartupError where
  | noConfig (e : ConfigError)
  | badAddress (fault : AddressFault)
  deriving DecidableEq, Repr

/-- The wording of an error. -/
def StartupError.message : StartupError → Text
  | .noConfig _ => "failed to load configuration".toList
  | .badAddress fault => fault.message

/-- A server that can be run. -/
inductive Service where
  | stdio (c : Config)
  | eventStream (c : Config) (address : Address) (streamPath messagePath : Text)
  | streamable (c : Config) (address : Address) (path : Text)

/-- The server that the options ask for, with the configuration that has been loaded. -/
def ServeOptions.start (o : ServeOptions) (loaded : Except ConfigError Config) :
    Except StartupError Service :=
  match loaded with
  | .error e => .error (.noConfig e)
  | .ok c =>
    match o.transport with
    | .stdio => .ok (.stdio c)
    | .eventStream =>
      match Address.parse (Address.normalize o.address) with
      | .error fault => .error (.badAddress fault)
      | .ok address => .ok (.eventStream c address o.streamPath o.messagePath)
    | .streamable =>
      match Address.parse (Address.normalize o.address) with
      | .error fault => .error (.badAddress fault)
      | .ok address => .ok (.streamable c address o.postPath)

end MetricsBridge
