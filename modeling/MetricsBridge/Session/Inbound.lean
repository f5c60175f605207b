import MetricsBridge.Text.Form

/-!
# Requests that come in over HTTP

What the server looks at in a request, and the statuses that it answers with.
-/
namespace MetricsBridge

/-- The status of an answer. -/
inductive Status where
  | ok
  | accepted
  | badRequest
  | unauthorized
  | notFound
  | methodNotAllowed
  | notAcceptable
  | gone
  | unsupportedMediaType
  | unprocessable
  deriving DecidableEq, Repr

/-- The number of a status. -/
def Status.code : Status → Nat
  | .ok => 200
  | .accepted => 202
  | .badRequest => 400
  | .unauthorized => 401
  | .notFound => 404
  | .methodNotAllowed => 405
  | .notAcceptable => 406
  | .gone => 410
  | .unsupportedMediaType => 415
  | .unprocessable => 422

/-- A request that comes in. -/
structure Inbound where
  method : Text
  path : Text
  query : Text
  headers : List (Text × Text)
  body : Text
  deriving DecidableEq, Repr

namespace Inbound

/-- A request for a target, which is a path and mostly a query. -/
def ofTarget (method target : Text) (headers : List (Text × Text)) (body : Text) : Inbound :=
  match Text.cutAt '?' target with
  | some (path, query) => ⟨method, path, query, headers, body⟩
  | none => ⟨method, target, [], headers, body⟩

/-- The character may stand in the value of a header that is read as a text. -/
def isHeaderText (c : Char) : Bool :=
  c == '\t' || (' ' ≤ c && c ≤ '~')

/-- The value of the first header of a name, if it is a text. -/
def header? (r : Inbound) (name : String) : Option Text :=
  ((r.headers.find? fun h => Text.sameIgnoringCase h.1 name.toList).map Prod.snd).filter
    fun value => value.all isHeaderText

/-- The values of a name in the query. -/
def queryValues (r : Inbound) (name : String) : List Text :=
  (Form.parse r.query).filterMap fun p => if p.1 = name.toList then some p.2 else none

end Inbound

/-- A text occurs in another. -/
def Text.occursIn (part : Text) : Text → Bool
  | [] => part == []
  | c :: rest => part.isPrefixOf (c :: rest) || occursIn part rest

/-! ### Media types -/

namespace MediaType

/-- The character may stand in a name. -/
def isTokenChar (c : Char) : Bool :=
  c.isAlphanum || "!#$%&'*+-.^_\x60|~".toList.contains c

/-- A name. -/
def isToken (t : Text) : Bool :=
  t != [] && t.all isTokenChar

/-- A value between double quotes. -/
def isQuoted (t : Text) : Bool :=
  2 ≤ t.length && t.head? == some '"' && t.getLast? == some '"'
    && ((t.drop 1).dropLast.all fun c => c != '"')

/-- A parameter: a name and a value. -/
def isParameter (t : Text) : Bool :=
  match Text.cutAt '=' (t.dropWhile (· == ' ')) with
  | some (name, value) => isToken name && (isToken value || isQuoted value)
  | none => false

/-- What follows the type: nothing, or parameters, after the last of which there may be nothing. -/
def areParameters : List Text → Bool
  | [] => true
  | [last] => last.all (· == ' ') || isParameter last
  | t :: rest => isParameter t && areParameters rest

/-- The subtype is the one of JSON, or says that it is built on it. -/
def isJsonSubtype (t : Text) : Bool :=
  match Text.cutAtLast '+' t with
  | some (base, suffix) => base == "json".toList || suffix == "json".toList
  | none => t == "json".toList

/-- The media type of JSON or of something that is built on it. -/
def isJson (t : Text) : Bool :=
  match Text.splitOn ';' t with
  | [] => false
  | essence :: parameters =>
    match Text.cutAt '/' (Text.toLowerAscii essence) with
    | some (kind, subtype) =>
      kind == "application".toList && isToken subtype && isJsonSubtype subtype
        && areParameters parameters
    | none => false

end MediaType

end MetricsBridge
