import MetricsBridge.Text.Blank
import MetricsBridge.Url.Host
import MetricsBridge.Url.Path

/-!
# Reading addresses

`Url.parse` reads an address of the schemes `http` and `https`.  Of an address of another scheme it
only says what is wrong with it, which is its scheme if there is nothing else.
-/
namespace MetricsBridge.Url

/-- The text without spaces and controls at its ends and without ignored characters. -/
def clean (t : Text) : Text :=
  let isEdge (c : Char) := c.toNat ≤ 0x20
  let t := ((t.dropWhile isEdge).reverse.dropWhile isEdge).reverse
  t.filter fun c => !isIgnored c

/-- A character of the name of a scheme. -/
def inScheme (c : Char) : Bool :=
  c.isAlphanum || c == '+' || c == '-' || c == '.'

/-- The scheme of an address, in lower case, and what follows its colon. -/
def splitScheme? (t : Text) : Option (Text × Text) :=
  let name := t.takeWhile inScheme
  match name, t.drop name.length with
  | c :: _, ':' :: rest => if c.isAlpha then some (Text.toLowerAscii name, rest) else none
  | _, _ => none

/-- The end of the part that holds credentials, the host and its number.  Only some schemes know the
backslash. -/
def endsAuthority (isWeb : Bool) (c : Char) : Bool :=
  c == '/' || c == '?' || c == '#' || (isWeb && c == '\\')

/-- The credentials that stand before the last `@`. -/
structure Credentials where
  user : Text
  password : Option Text

/-- Credentials in encoded form.  An empty password is none. -/
def parseCredentials (t : Text) : Credentials :=
  match Text.cutAt ':' t with
  | some (user, []) => ⟨Percent.encode inCredentials user, none⟩
  | some (user, password) =>
    ⟨Percent.encode inCredentials user, some (Percent.encode inCredentials password)⟩
  | none => ⟨Percent.encode inCredentials t, none⟩

/-- Takes the credentials off the front of an address.  After empty ones something has to follow. -/
def takeCredentials (isWeb : Bool) (t : Text) : Except Fault (Credentials × Text) :=
  let authority := t.takeWhile fun c => !endsAuthority isWeb c
  let rest := t.drop authority.length
  match Text.cutAtLast '@' authority with
  | none => .ok (⟨[], none⟩, t)
  | some ([], host) =>
    if host = [] ∧ rest ≠ [] then .error .emptyHost else .ok (⟨[], none⟩, host ++ rest)
  | some (credentials, host) => .ok (parseCredentials credentials, host ++ rest)

/-- The length of the host: it ends at a colon outside brackets. -/
def hostLength (isWeb : Bool) : (isBracketed : Bool) → Text → Nat
  | _, [] => 0
  | isBracketed, c :: rest =>
    if (c == ':' && !isBracketed) || endsAuthority isWeb c then 0
    else
      let isInside := if c = '[' then true else if c = ']' then false else isBracketed
      hostLength isWeb isInside rest + 1

/-- The number after the colon, and what follows it.  It may be left out. -/
def takePortNumber (t : Text) : Except Fault (Option Nat × Text) :=
  let digits := t.takeWhile isDigit
  let rest := t.drop digits.length
  if 65535 < digitsValue digits then .error .invalidPortNumber
  else match rest with
    | [] => .ok (if digits = [] then none else some (digitsValue digits), rest)
    | c :: _ =>
      if endsAuthority true c then
        .ok (if digits = [] then none else some (digitsValue digits), rest)
      else .error .invalidPortNumber

/-- Credentials, the host and its number at the front of an address, and what follows them. -/
def takeAuthority (isWeb : Bool) (t : Text) :
    Except Fault (Credentials × Text × Option Nat × Text) := do
  let (credentials, t) ← takeCredentials isWeb t
  let name := t.take (hostLength isWeb false t)
  let rest := t.drop name.length
  if isWeb ∧ name = [] then throw .emptyHost
  let host ← if isWeb then parseHost name else parseForeignHost name
  match rest with
  | ':' :: rest =>
    if host = [] then throw .emptyHost
    let (portNumber, rest) ← takePortNumber rest
    return (credentials, host, portNumber, rest)
  | _ => return (credentials, host, none, rest)

/-- What follows the host and its number: the path, the query and the fragment. -/
def parseTail (t : Text) : List Text × Option Text × Option Text :=
  let (t, fragment) := match Text.cutAt '#' t with
    | some (before, after) => (before, some (Percent.encode inFragment after))
    | none => (t, none)
  let (t, query) := match Text.cutAt '?' t with
    | some (before, after) => (before, some (Percent.encode inQuery after))
    | none => (t, none)
  (parsePath t, query, fragment)

/-- An address of a scheme that the bridge speaks, after the colon of the scheme. -/
def parseWeb (scheme : Scheme) (t : Text) : Except Fault Url := do
  let t := t.dropWhile fun c => c == '/' || c == '\\'
  let (credentials, host, portNumber, rest) ← takeAuthority true t
  let (path, query, fragment) := parseTail rest
  return {
    scheme, host, path, query, fragment
    user := credentials.user
    password := credentials.password
    portNumber := if portNumber = some scheme.defaultPortNumber then none else portNumber }

/-- The host of an address of a file, which may be absent. -/
def checkFileHost (t : Text) : Except Fault Unit :=
  match t with
  | a :: b :: rest =>
    if endsAuthority true a && endsAuthority true b && a != '?' && a != '#' && b != '?' && b != '#'
    then
      let host := rest.takeWhile fun c => !endsAuthority true c
      if host = [] ∨ isDrive host then .ok () else (parseHost host).map fun _ => ()
    else .ok ()
  | _ => .ok ()

/-- What is wrong with an address of a scheme that the bridge does not speak, but for its scheme. -/
def checkForeign (scheme : Text) (t : Text) : Except Fault Unit := do
  if ["ws".toList, "wss".toList, "ftp".toList].contains scheme then
    discard (takeAuthority true (t.dropWhile fun c => c == '/' || c == '\\'))
  else if scheme = "file".toList then checkFileHost t
  else match t with
    | '/' :: '/' :: rest =>
      let (credentials, host, _, _) ← takeAuthority false rest
      if host = [] ∧ (credentials.user ≠ [] ∨ credentials.password.isSome) then throw .emptyHost
    | _ => return ()

/-- The address that a text writes. -/
def parse (t : Text) : Except Fault Url :=
  match splitScheme? (clean (Text.trim t)) with
  | none => .error .noScheme
  | some (scheme, rest) =>
    if scheme = Scheme.http.name then parseWeb .http rest
    else if scheme = Scheme.https.name then parseWeb .https rest
    else do
      checkForeign scheme rest
      throw (.unsupportedScheme scheme)

end MetricsBridge.Url
