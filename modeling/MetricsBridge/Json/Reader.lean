import MetricsBridge.Json.Numeral
import MetricsBridge.Text.Hex

/-!
# Reading JSON values

`Json.parse` reads a whole text.  Containers may be nested at most 127 deep.  The reading functions
take a bound on their number of steps, for which one more than the length of the text is enough.
-/
namespace MetricsBridge.Json

/-- How deep containers may be nested, plus one. -/
def maxDepth : Nat := 128

namespace Cursor

/-- The rest of a word, of which the first letter has been seen. -/
def word (cur : Cursor) : Text → Reading Cursor
  | [] => .ok cur
  | letter :: letters =>
    match cur.rest with
    | [] => cur.fail .unfinishedValue
    | c :: rest =>
      if c = letter then (cur.ahead 1 rest).word letters else cur.failNext .expectedWord

/-- Four hexadecimal digits of an escape. -/
def hexEscape (cur : Cursor) : Reading (Nat × Cursor) :=
  match cur.rest with
  | a :: b :: c :: d :: rest =>
    match hexNumber? [a, b, c, d] with
    | some n => .ok (n, cur.ahead 4 rest)
    | none => cur.failAfter 4 .invalidEscape
  | rest =>
    if Text.byteLength rest < 4 then cur.failAfter 4 .unfinishedText
    else cur.failAfter 4 .invalidEscape

/-- A code unit that starts a pair. -/
def isHighSurrogate (n : Nat) : Bool := 0xD800 ≤ n && n ≤ 0xDBFF

/-- A code unit that ends a pair. -/
def isLowSurrogate (n : Nat) : Bool := 0xDC00 ≤ n && n ≤ 0xDFFF

/-- The given character of a pair's second escape. -/
def pairMark (cur : Cursor) (mark : Char) : Reading Cursor :=
  match cur.rest with
  | [] => cur.fail .unfinishedText
  | c :: rest => if c = mark then .ok (cur.ahead 1 rest) else cur.failNext .unfinishedSurrogate

/-- The character of an escape by number, which may be a pair of two. -/
def unicodeEscape (cur : Cursor) : Reading (Char × Cursor) := do
  let (high, cur) ← cur.hexEscape
  if isLowSurrogate high then cur.fail .loneSurrogate
  else if isHighSurrogate high then
    let cur ← cur.pairMark '\\'
    let cur ← cur.pairMark 'u'
    let (low, cur) ← cur.hexEscape
    if isLowSurrogate low then
      .ok (Char.ofNat ((high - 0xD800) * 1024 + (low - 0xDC00) + 0x10000), cur)
    else cur.fail .loneSurrogate
  else .ok (Char.ofNat high, cur)

/-- The character that a letter after a backslash stands for. -/
def escaped? (c : Char) : Option Char :=
  if c = '"' ∨ c = '\\' ∨ c = '/' then some c
  else if c = 'b' then some '\x08'
  else if c = 'f' then some '\x0c'
  else if c = 'n' then some '\n'
  else if c = 'r' then some '\r'
  else if c = 't' then some '\t'
  else none

/-- What follows a backslash. -/
def escape (cur : Cursor) : Reading (Char × Cursor) :=
  match cur.rest with
  | [] => cur.fail .unfinishedText
  | c :: rest =>
    if c = 'u' then (cur.ahead 1 rest).unicodeEscape
    else match escaped? c with
      | some e => .ok (e, cur.ahead 1 rest)
      | none => cur.failNext .invalidEscape

/-- The rest of a quoted text, after the characters `read` in reverse. -/
def quoted : (steps : Nat) → (read : Text) → Cursor → Reading (Text × Cursor)
  | 0, _, cur => cur.fail .unfinishedText
  | steps + 1, read, cur =>
    match cur.rest with
    | [] => cur.fail .unfinishedText
    | c :: rest =>
      if c = '"' then .ok (read.reverse, cur.ahead 1 rest)
      else if c = '\\' then
        match (cur.ahead 1 rest).escape with
        | .ok (e, cur) => quoted steps (e :: read) cur
        | .error e => .error e
      else if c.toNat < 0x20 then cur.failNext .controlCharacter
      else quoted steps (c :: read) (cur.past c rest)

/-- Goes to the next item of an array, if there is one, and else to its closing bracket. -/
def nextItem (cur : Cursor) (isFirst : Bool) : Reading (Bool × Cursor) :=
  let cur := cur.skipSpaces
  match cur.rest with
  | [] => cur.failNext .unfinishedList
  | c :: rest =>
    if c = ']' then .ok (false, cur)
    else if isFirst then .ok (true, cur)
    else if c = ',' then
      let cur := (cur.ahead 1 rest).skipSpaces
      match cur.rest with
      | [] => cur.failNext .unfinishedValue
      | d :: _ => if d = ']' then cur.failNext .trailingComma else .ok (true, cur)
    else cur.failNext .expectedListEnd

/-- Goes to the next name in an object, if there is one, and else to its closing brace. -/
def nextName (cur : Cursor) (isFirst : Bool) : Reading (Bool × Cursor) :=
  let cur := cur.skipSpaces
  match cur.rest with
  | [] => cur.failNext .unfinishedObject
  | c :: rest =>
    if c = '\x7d' then .ok (false, cur)
    else if isFirst then
      if c = '"' then .ok (true, cur) else cur.failNext .keyNotText
    else if c = ',' then
      let cur := (cur.ahead 1 rest).skipSpaces
      match cur.rest with
      | [] => cur.failNext .unfinishedValue
      | d :: _ =>
        if d = '"' then .ok (true, cur)
        else if d = '\x7d' then cur.failNext .trailingComma
        else cur.failNext .keyNotText
    else cur.failNext .expectedObjectEnd

/-- Past the colon after a name. -/
def colon (cur : Cursor) : Reading Cursor :=
  let cur := cur.skipSpaces
  match cur.rest with
  | [] => cur.failNext .unfinishedObject
  | c :: rest => if c = ':' then .ok (cur.ahead 1 rest) else cur.failNext .expectedColon

/-- Past the next character, whatever it is. -/
def skipOne (cur : Cursor) : Cursor :=
  match cur.rest with
  | [] => cur
  | c :: rest => cur.past c rest

/-- Past the closing bracket of an array of which every item wanted has been read. -/
def closeArray (cur : Cursor) : Reading Cursor :=
  let cur := cur.skipSpaces
  match cur.rest with
  | [] => cur.failNext .unfinishedList
  | c :: rest =>
    if c = ']' then .ok (cur.ahead 1 rest)
    else if c = ',' then
      let cur := (cur.ahead 1 rest).skipSpaces
      match cur.rest with
      | d :: _ => cur.failNext (if d = ']' then .trailingComma else .trailingCharacters)
      | [] => cur.failNext .trailingCharacters
    else cur.failNext .trailingCharacters

mutual

/-- A value, with `depth` levels of nesting left. -/
def value : (steps depth : Nat) → Cursor → Reading (Json × Cursor)
  | 0, _, cur => cur.fail .unfinishedValue
  | steps + 1, depth, cur =>
    let cur := cur.skipSpaces
    match cur.rest with
    | [] => cur.failNext .unfinishedValue
    | c :: rest =>
      if c = 'n' then do return (.null, ← (cur.ahead 1 rest).word "ull".toList)
      else if c = 't' then do return (.bool true, ← (cur.ahead 1 rest).word "rue".toList)
      else if c = 'f' then do return (.bool false, ← (cur.ahead 1 rest).word "alse".toList)
      else if c = '-' then do
        let (n, cur) ← (cur.ahead 1 rest).numeral true
        return (.number n, cur)
      else if isDigit c then do
        let (n, cur) ← cur.numeral false
        return (.number n, cur)
      else if c = '"' then do
        let (t, cur) ← quoted steps [] (cur.ahead 1 rest)
        return (.text t, cur)
      else if c = '[' then
        if depth ≤ 1 then cur.failNext .tooDeep
        else items steps (depth - 1) true [] (cur.ahead 1 rest)
      else if c = '\x7b' then
        if depth ≤ 1 then cur.failNext .tooDeep
        else fields steps (depth - 1) true [] (cur.ahead 1 rest)
      else cur.failNext .expectedValue

/-- The items of an array after those `read` in reverse, and its closing bracket. -/
def items : (steps depth : Nat) → (isFirst : Bool) → (read : List Json) → Cursor →
    Reading (Json × Cursor)
  | 0, _, _, _, cur => cur.fail .unfinishedList
  | steps + 1, depth, isFirst, read, cur =>
    match cur.nextItem isFirst with
    | .error e => .error e
    | .ok (false, cur) => .ok (.array read.reverse, cur.skipOne)
    | .ok (true, cur) =>
      match value steps depth cur with
      | .error e => .error e
      | .ok (item, cur) => items steps depth false (item :: read) cur

/-- The fields of an object after those `read`, and its closing brace. -/
def fields : (steps depth : Nat) → (isFirst : Bool) → (read : List Field) → Cursor →
    Reading (Json × Cursor)
  | 0, _, _, _, cur => cur.fail .unfinishedObject
  | steps + 1, depth, isFirst, read, cur =>
    match cur.nextName isFirst with
    | .error e => .error e
    | .ok (false, cur) => .ok (.object read, cur.skipOne)
    | .ok (true, cur) =>
      match (do
        let (name, cur) ← quoted steps [] cur.skipOne
        let cur ← cur.colon
        let (v, cur) ← value steps depth cur
        return (Table.set name v read, cur) : Reading (List Field × Cursor)) with
      | .error e => .error e
      | .ok (read, cur) => fields steps depth false read cur

end

/-- Nothing but spaces may follow. -/
def finish (cur : Cursor) : Reading Unit :=
  let cur := cur.skipSpaces
  match cur.rest with
  | [] => .ok ()
  | _ => cur.failNext .trailingCharacters

end Cursor

/-- The value that a whole text writes. -/
def parse (t : Text) : Reading Json := do
  let (j, cur) ← Cursor.value (Cursor.enoughSteps t) maxDepth (Cursor.start t)
  cur.finish
  return j

end MetricsBridge.Json
