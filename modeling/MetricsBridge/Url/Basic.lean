import MetricsBridge.Text.Decimal
import MetricsBridge.Text.Percent

/-!
# Addresses

An address of the schemes `http` and `https`.  Its parts are kept in the encoded form in which they
are sent.
-/
namespace MetricsBridge

/-- The schemes that the bridge speaks. -/
inductive Scheme where
  | http
  | https
  deriving DecidableEq, Repr

namespace Scheme

/-- The name of a scheme. -/
def name : Scheme → Text
  | .http => "http".toList
  | .https => "https".toList

/-- The number after the host that goes without saying. -/
def defaultPortNumber : Scheme → Nat
  | .http => 80
  | .https => 443

end Scheme

/-- An address.  The path is the list of its segments and has at least one; the root alone is one
empty segment. -/
structure Url where
  scheme : Scheme
  user : Text
  password : Option Text
  host : Text
  portNumber : Option Nat
  path : List Text
  query : Option Text
  fragment : Option Text
  deriving DecidableEq, Repr

namespace Url

/-- The path of an address. -/
def renderPath (path : List Text) : Text :=
  path.flatMap fun segment => '/' :: segment

/-- The credentials in front of the host. -/
def renderCredentials (user : Text) (password : Option Text) : Text :=
  match password with
  | some p => user ++ ':' :: p ++ ['@']
  | none => if user = [] then [] else user ++ ['@']

/-- The text of an address. -/
def render (u : Url) : Text :=
  u.scheme.name ++ "://".toList ++ renderCredentials u.user u.password ++ u.host
    ++ (match u.portNumber with
      | some n => ':' :: Text.ofNat n
      | none => [])
    ++ renderPath u.path
    ++ (match u.query with
      | some q => '?' :: q
      | none => [])
    ++ (match u.fragment with
      | some f => '#' :: f
      | none => [])

/-- What is wrong with an address. -/
inductive Fault where
  | noScheme
  | emptyHost
  | invalidHostName
  | invalidHostCharacter
  | invalidPortNumber
  | invalidIpv4
  | invalidIpv6
  | unsupportedScheme (name : Text)
  deriving DecidableEq, Repr

/-- The wording of a fault. -/
def Fault.message : Fault → Text
  | .noScheme => "relative URL without a base".toList
  | .emptyHost => "empty host".toList
  | .invalidHostName => "invalid international domain name".toList
  | .invalidHostCharacter => "invalid domain character".toList
  | .invalidPortNumber => "invalid port number".toList
  | .invalidIpv4 => "invalid IPv4 address".toList
  | .invalidIpv6 => "invalid IPv6 address".toList
  | .unsupportedScheme name => "unsupported scheme '".toList ++ name ++ ['\'']

/-- Printable characters of ASCII other than these stand for themselves. -/
def keepsAllBut (escaped : String) (c : Char) : Bool :=
  0x20 ≤ c.toNat && c.toNat < 0x7F && !escaped.toList.contains c

/-- The characters that stand for themselves in a fragment. -/
def inFragment : Char → Bool := keepsAllBut " \"<>`"

/-- The characters that stand for themselves in a query. -/
def inQuery : Char → Bool := keepsAllBut " \"#<>'"

/-- The characters that stand for themselves in a path. -/
def inPath : Char → Bool := keepsAllBut " \"#<>?`\x7b\x7d"

/-- The characters that stand for themselves in a segment that is added to a path. -/
def inSegment : Char → Bool := keepsAllBut " \"#<>?`\x7b\x7d/%\\"

/-- The characters that stand for themselves in credentials. -/
def inCredentials : Char → Bool := keepsAllBut " \"#<>?`\x7b\x7d/:;=@[\\]^|"

/-- Characters that no address keeps. -/
def isIgnored (c : Char) : Bool :=
  c == '\t' || c == '\n' || c == '\r'

end Url

end MetricsBridge
