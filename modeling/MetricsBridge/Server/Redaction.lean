import MetricsBridge.Text.Blank

/-!
# Hiding secrets

Error texts may quote addresses and headers.  Whatever looks like a secret in them is replaced: the
credentials of an address, values behind a telling name, and the credentials of authorization
headers.  A pattern is a list of runs of characters, and none of its runs may take characters that
the next one needs, so that taking as many as possible finds what there is to find.
-/
namespace MetricsBridge.Redaction

/-- A run of characters of one class, of a least and possibly a greatest length. -/
structure Run where
  accepts : Char → Bool
  least : Nat
  most : Option Nat

/-- A letter in lower case.  The long s is an s, the Kelvin sign a k. -/
def foldLetter (c : Char) : Char :=
  if c = '\u017F' then 's' else if c = '\u212A' then 'k' else c.toLower

/-- The letters are the same but for their case. -/
def sameLetter (a b : Char) : Bool :=
  foldLetter a == foldLetter b

/-- A letter of the Latin alphabet of either case. -/
def isLetter (c : Char) : Bool :=
  c.isAlpha || c == '\u017F' || c == '\u212A'

/-- A letter or a digit. -/
def isWordChar (c : Char) : Bool :=
  isLetter c || c.isDigit

namespace Run

/-- One character of a class. -/
def one (accepts : Char → Bool) : Run := ⟨accepts, 1, some 1⟩

/-- At most one character of a class. -/
def maybe (accepts : Char → Bool) : Run := ⟨accepts, 0, some 1⟩

/-- At least so many characters of a class. -/
def many (least : Nat) (accepts : Char → Bool) : Run := ⟨accepts, least, none⟩

/-- The characters of a word, in either case. -/
def word (w : String) : List Run :=
  w.toList.map fun c => one (sameLetter c)

/-- What the run takes from the start of a text, and what it leaves. -/
def take? (r : Run) (t : Text) : Option (Text × Text) :=
  let room := match r.most with
    | some n => t.take n
    | none => t
  let taken := room.takeWhile r.accepts
  if r.least ≤ taken.length then some (taken, t.drop taken.length) else none

/-- What runs take one after the other from the start of a text, and what they leave. -/
def takeAll? : List Run → Text → Option (Text × Text)
  | [], t => some ([], t)
  | r :: runs, t => do
    let (taken, t) ← r.take? t
    let (more, t) ← takeAll? runs t
    return (taken ++ more, t)

end Run

/-- A pattern: a telling name in one of several forms, what has to follow it, and what stands for
the whole, given the name as it was found. -/
structure Pattern where
  names : List (List Run)
  value : List Run
  replacement : Text → Text

/-- What stands for a secret. -/
def mask : Text := "***REDACTED***".toList

/-- A quote of either kind, which may stand around a value. -/
def quoteMark : Run := .maybe fun c => c == '\'' || c == '"'

/-- A colon or an equals sign, with blanks around it. -/
def assignment : List Run :=
  [.many 0 isBlank, .one fun c => c == ':' || c == '=', .many 0 isBlank]

/-- A character of a key. -/
def isKeyChar (c : Char) : Bool :=
  isWordChar c || c == '_' || c == '-'

/-- A character of the user in an address. -/
def inUser (c : Char) : Bool :=
  !(c == '/' || isBlank c || c == ':' || c == '@')

/-- A character of the password in an address. -/
def inPassword (c : Char) : Bool :=
  !(c == '/' || isBlank c || c == '@')

/-- A name, a value of so many characters of a class, and the name with the mask for it. -/
def assigned (names : List (List Run)) (least : Nat) (accepts : Char → Bool) : Pattern where
  names := names
  value := assignment ++ [quoteMark, .many least accepts, quoteMark]
  replacement name := name ++ '=' :: mask

/-- A word in front of credentials that prove who asks. -/
def proving (word title : String) (value : List Run) : Pattern where
  names := [Run.word word]
  value := .many 1 isBlank :: value
  replacement _ := title.toList ++ ' ' :: mask

/-- The credentials of an address. -/
def address : Pattern where
  names := [Run.word "http" ++ [.maybe (sameLetter 's')] ++ Run.word "://"]
  value := [.many 1 inUser, .one (· == ':'), .many 1 inPassword, .one (· == '@')]
  replacement name := name ++ mask ++ ['@']

/-- A key of an interface. -/
def apiKey : Pattern :=
  assigned [Run.word "api" ++ [.maybe fun c => c == '_' || c == '-'] ++ Run.word "key"] 20 isKeyChar

/-- A password. -/
def password : Pattern :=
  assigned [Run.word "password", Run.word "passwd", Run.word "pwd"] 8
    fun c => !(isBlank c || c == '\'' || c == '"')

/-- A secret or a token. -/
def secret : Pattern :=
  assigned [Run.word "secret", Run.word "token"] 20 isKeyChar

/-- A token that proves who asks. -/
def bearer : Pattern :=
  proving "bearer" "Bearer" [.many 20 fun c => isKeyChar c || c == '.']

/-- A user and a password that prove who asks. -/
def basic : Pattern :=
  proving "basic" "Basic"
    [.many 8 fun c => isWordChar c || c == '+' || c == '/', ⟨(· == '='), 0, some 2⟩]

/-- The patterns in the order in which they are applied. -/
def patterns : List Pattern :=
  [address, apiKey, password, secret, bearer, basic]

namespace Pattern

/-- What stands for the match at the start of a text, and the length of the match. -/
def match? (p : Pattern) (t : Text) : Option (Text × Nat) :=
  p.names.findSome? fun name => do
    let (found, rest) ← Run.takeAll? name t
    let (value, _) ← Run.takeAll? p.value rest
    return (p.replacement found, found.length + value.length)

/-- The text with every match replaced, after skipping so many characters and with what comes
before in reverse. -/
def replaceFrom (p : Pattern) : (skip : Nat) → (before : Text) → Text → Text
  | _, before, [] => before.reverse
  | skip + 1, before, _ :: rest => replaceFrom p skip before rest
  | 0, before, c :: rest =>
    match p.match? (c :: rest) with
    | some (replacement, length) =>
      replaceFrom p (length - 1) (replacement.reverse ++ before) rest
    | none => replaceFrom p 0 (c :: before) rest

/-- The text with every match replaced, the first one first. -/
def replaceAll (p : Pattern) (t : Text) : Text :=
  p.replaceFrom 0 [] t

end Pattern

/-- The text with what looks like a secret hidden. -/
def redact (t : Text) : Text :=
  patterns.foldl (fun t p => p.replaceAll t) t

end MetricsBridge.Redaction
