import MetricsBridge.Text.Basic

/-!
# The command line

`version` prints the version; `serve` runs the server, with options that each may be given
once.  The value of an option follows an equals sign or is the next word, and is looked at when
the option is complete: when the next option begins or the words end.
-/
namespace MetricsBridge

/-- How the server and its client talk. -/
inductive Transport where
  | stdio
  | eventStream
  | streamable
  deriving DecidableEq, Repr

namespace Transport

/-- The word for a transport. -/
def word : Transport → Text
  | .stdio => "stdio".toList
  | .eventStream => "sse".toList
  | .streamable => "streamable-http".toList

/-- The transport of a word. -/
def find? (t : Text) : Option Transport :=
  [Transport.stdio, .eventStream, .streamable].find? fun k => k.word == t

end Transport

/-- How the server is to be run. -/
structure ServeOptions where
  transport : Transport := .stdio
  address : Text := ":8080".toList
  streamPath : Text := "/sse".toList
  messagePath : Text := "/message".toList
  postPath : Text := "/mcp".toList
  debug : Bool := false
  configPath : Option Text := none
  deriving DecidableEq, Repr

/-- What the program is asked to do. -/
inductive Command where
  | version
  | serve (o : ServeOptions)
  deriving DecidableEq, Repr

/-- Why the words are no command: something is to be shown instead, or they are wrong. -/
inductive UsageError where
  | showHelp
  | showHelpForMissing
  | showVersion
  | unknownArgument
  | unknownCommand
  | invalidValue
  | unexpectedValue
  | repeated
  deriving DecidableEq, Repr

/-- An option with a value. -/
inductive Setting where
  | transport
  | address
  | streamPath
  | messagePath
  | postPath
  | config
  deriving DecidableEq, Repr

namespace Setting

/-- The name of an option, without the dashes. -/
def name : Setting → Text
  | .transport => "transport".toList
  | .address => "http-addr".toList
  | .streamPath => "sse-endpoint".toList
  | .messagePath => "message-endpoint".toList
  | .postPath => "http-endpoint".toList
  | .config => "config".toList

/-- The option of a name. -/
def find? (t : Text) : Option Setting :=
  [Setting.transport, .address, .streamPath, .messagePath, .postPath, .config].find?
    fun s => s.name == t

end Setting

/-- Options of which not all words need have been read; the value of the last may be missing yet. -/
structure Draft where
  options : ServeOptions := {}
  given : List Setting := []
  pending : Option (Setting × Option Text) := none

namespace Draft

/-- The options with a value set, if it is one that the option takes. -/
def set? (o : ServeOptions) (v : Text) : Setting → Option ServeOptions
  | .transport => (Transport.find? v).map fun transport => { o with transport }
  | .address => some { o with address := v }
  | .streamPath => some { o with streamPath := v }
  | .messagePath => some { o with messagePath := v }
  | .postPath => some { o with postPath := v }
  | .config => if v = [] then none else some { o with configPath := some v }

/-- Gives an option a value. -/
def assign (d : Draft) (s : Setting) (v : Text) : Except UsageError Draft :=
  if s ∈ d.given then .error .repeated
  else match set? d.options v s with
    | some options => .ok { d with options, given := s :: d.given }
    | none => .error .invalidValue

/-- Completes the last option. -/
def complete (d : Draft) : Except UsageError Draft :=
  match d.pending with
  | none => .ok d
  | some (_, none) => .error .invalidValue
  | some (s, some v) => { d with pending := none }.assign s v

/-- Asks for more output, which can be asked for once. -/
def askDebug (d : Draft) : Except UsageError Draft :=
  if d.options.debug then .error .repeated
  else .ok { d with options := { d.options with debug := true } }

/-- An option by its name and the value after the equals sign, if there is one. -/
def option (d : Draft) (name : Text) (value : Option Text) : Except UsageError Draft :=
  if name = "help".toList then do
    if value.isSome then throw .unexpectedValue
    let _ ← d.complete
    throw .showHelp
  else if name = "debug".toList then do
    if value.isSome then throw .unexpectedValue
    (← d.complete).askDebug
  else
    match Setting.find? name with
    | none => .error .unknownArgument
    | some s => do
      let d ← d.complete
      match value with
      | some v => d.assign s v
      | none => return { d with pending := some (s, none) }

/-- The letter of an option; only help has one. -/
def letter (d : Draft) (c : Char) : Except UsageError Draft := do
  if c != 'h' then throw .unknownArgument
  let _ ← d.complete
  throw .showHelp

/-- A word that is no option: only the value of the last option may be one. -/
def plain (d : Draft) (word : Text) : Except UsageError Draft :=
  match d.pending with
  | some (s, none) => .ok { d with pending := some (s, some word) }
  | _ => .error .unknownArgument

/-- A word before any `--`. -/
def word (d : Draft) : Text → Except UsageError Draft
  | '-' :: '-' :: long =>
    match Text.cutAt '=' long with
    | some (name, value) => d.option name (some value)
    | none => d.option long none
  | '-' :: c :: _ => d.letter c
  | w => d.plain w

/-- The options that the words make; after `--` nothing may follow. -/
def read (d : Draft) : List Text → Except UsageError ServeOptions
  | [] => d.complete.map Draft.options
  | w :: rest =>
    if w = "--".toList then
      if rest = [] then d.complete.map Draft.options else .error .unknownArgument
    else do (← d.word w).read rest

end Draft

namespace Command

/-- The words that begin a command. -/
def words : List Text := ["serve".toList, "version".toList, "help".toList]

/-- The words after `help`: at most one, which begins a command. -/
def readHelp : List Text → UsageError
  | [] => .showHelp
  | [w] => if words.contains w then .showHelp else .unknownCommand
  | _ => .unknownCommand

/-- The words after `version`, which takes none. -/
def readVersion : List Text → Except UsageError Command
  | [] => .ok .version
  | w :: rest =>
    if w = "--".toList then if rest = [] then .ok .version else .error .unknownArgument
    else if w = "--help".toList then .error .showHelp
    else if "--help=".toList.isPrefixOf w then .error .unexpectedValue
    else if "-h".toList.isPrefixOf w then .error .showHelp
    else .error .unknownArgument

/-- Words that stand in the place of a command but are none. -/
def readFlag : Text → UsageError
  | '-' :: '-' :: long =>
    let name := long.takeWhile (· != '=')
    if name = "help".toList then if name = long then .showHelp else .unexpectedValue
    else if name = "version".toList then if name = long then .showVersion else .unexpectedValue
    else .unknownArgument
  | '-' :: c :: _ =>
    if c = 'h' then .showHelp else if c = 'V' then .showVersion else .unknownArgument
  | _ => .unknownCommand

/-- The command that the words after the name of the program make. -/
def read : List Text → Except UsageError Command
  | [] => .error .showHelpForMissing
  | w :: rest =>
    if w = "--".toList then
      match rest with
      | [] => .error .showHelpForMissing
      | next :: _ => .error (if words.contains next then .unknownArgument else .unknownCommand)
    else if w = "serve".toList then (({} : Draft).read rest).map .serve
    else if w = "version".toList then readVersion rest
    else if w = "help".toList then .error (readHelp rest)
    else .error (readFlag w)

end Command

end MetricsBridge
