import MetricsBridge.Json.Error

/-!
# A place in a JSON text

What is still to be read, and the line and column reached.
-/
namespace MetricsBridge.Json

/-- A place in a text: what follows it, its line, and the bytes before it in the line. -/
structure Cursor where
  rest : Text
  line : Nat
  column : Nat
  deriving DecidableEq, Repr

/-- The outcome of reading: mostly a value and the place after it, or an error. -/
abbrev Reading := Except ReadError

namespace Cursor

/-- The first place of a text. -/
def start (t : Text) : Cursor :=
  ⟨t, 1, 0⟩

/-- Steps that suffice to read a text: every character takes at most two. -/
def enoughSteps (t : Text) : Nat :=
  2 * t.length + 2

/-- The place after the character `c` and before `rest`. -/
def past (cur : Cursor) (c : Char) (rest : Text) : Cursor :=
  if c = '\n' then ⟨rest, cur.line + 1, 0⟩ else ⟨rest, cur.line, cur.column + c.utf8Size⟩

/-- The place after so many characters of one byte each, none of them the end of a line. -/
def ahead (cur : Cursor) (count : Nat) (rest : Text) : Cursor :=
  ⟨rest, cur.line, cur.column + count⟩

/-- The characters that may stand between tokens. -/
def isSpace (c : Char) : Bool :=
  c == ' ' || c == '\n' || c == '\t' || c == '\r'

/-- The first place of `rest` that holds no space. -/
def afterSpaces (line column : Nat) : Text → Cursor
  | [] => ⟨[], line, column⟩
  | c :: rest =>
    if c = '\n' then afterSpaces (line + 1) 0 rest
    else if isSpace c then afterSpaces line (column + 1) rest
    else ⟨c :: rest, line, column⟩

/-- The next place that holds no space. -/
def skipSpaces (cur : Cursor) : Cursor :=
  afterSpaces cur.line cur.column cur.rest

/-- The line and column after so many bytes of a text. -/
def placeAfter (line column : Nat) : Nat → Text → Nat × Nat
  | 0, _ => (line, column)
  | _, [] => (line, column)
  | bytes + 1, c :: rest =>
    if c = '\n' then placeAfter (line + 1) 0 bytes rest
    else if c.utf8Size ≤ bytes + 1 then
      placeAfter line (column + c.utf8Size) (bytes + 1 - c.utf8Size) rest
    else (line, column + (bytes + 1))

/-- A fault that shows after so many further bytes. -/
def failAfter {α : Type} (cur : Cursor) (bytes : Nat) (fault : Fault) : Reading α :=
  let (line, column) := placeAfter cur.line cur.column bytes cur.rest
  .error ⟨fault, line, column⟩

/-- A fault that shows at the place reached. -/
def fail {α : Type} (cur : Cursor) (fault : Fault) : Reading α :=
  .error ⟨fault, cur.line, cur.column⟩

/-- A fault of the next byte; at the end of the text it shows there. -/
def failNext {α : Type} (cur : Cursor) (fault : Fault) : Reading α :=
  cur.failAfter 1 fault

end Cursor

end MetricsBridge.Json
