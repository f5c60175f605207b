import MetricsBridge.Json.Printer
import MetricsBridge.Json.Skip

/-!
# Reading values of a known shape

A decoder reads a value straight from the text, so that a fault of the text and a value of the
wrong type are reported in the order in which they stand.  Records are read from objects, where
unknown fields are passed over, and from arrays that give their fields in order.
-/
namespace MetricsBridge.Json

/-- Reads a value at a cursor, with a bound on the steps and so many levels of nesting left. -/
abbrev Decoder (α : Type) := (steps depth : Nat) → Cursor → Reading (α × Cursor)

namespace Decoder

variable {α σ : Type}

/-- What is found in place of a value of another type, and the place after it.  Containers are not
read. -/
def found (steps : Nat) (cur : Cursor) : Reading (Text × Cursor) :=
  match cur.rest with
  | [] => cur.failNext .unfinishedValue
  | c :: rest =>
    let next := cur.ahead 1 rest
    let number (n : Numeral) : Text := match n with
      | .double x => "floating point `".toList ++ x.render ++ ['\x60']
      | n => "integer `".toList ++ n.render ++ ['\x60']
    if c = 'n' then return ("null".toList, ← next.word "ull".toList)
    else if c = 't' then return ("boolean `true`".toList, ← next.word "rue".toList)
    else if c = 'f' then return ("boolean `false`".toList, ← next.word "alse".toList)
    else if c = '-' then do
      let (n, cur) ← next.numeral true
      return (number n, cur)
    else if isDigit c then do
      let (n, cur) ← cur.numeral false
      return (number n, cur)
    else if c = '"' then do
      let (t, cur) ← Cursor.quoted steps [] next
      return ("string ".toList ++ Quoted.encode t, cur)
    else if c = '[' then return ("sequence".toList, cur)
    else if c = '\x7b' then return ("map".toList, cur)
    else cur.failNext .expectedValue

/-- The error that a value is not of the type asked for. -/
def wrongType (expected : Text) (steps : Nat) (cur : Cursor) : Reading α := do
  let (what, cur) ← found steps cur
  cur.fail (.wrongType what expected)

/-- Any value. -/
def json : Decoder Json :=
  Cursor.value

/-- A text. -/
def text : Decoder Text := fun steps _ cur =>
  let cur := cur.skipSpaces
  match cur.rest with
  | [] => cur.failNext .unfinishedValue
  | '"' :: rest => Cursor.quoted steps [] (cur.ahead 1 rest)
  | _ => wrongType "a string".toList steps cur

/-- A value of a type, or `null`. -/
def optional (d : Decoder α) : Decoder (Option α) := fun steps depth cur =>
  let cur := cur.skipSpaces
  match cur.rest with
  | 'n' :: rest => do return (none, ← (cur.ahead 1 rest).word "ull".toList)
  | _ => do
    let (a, cur) ← d steps depth cur
    return (some a, cur)

/-- The items of an array after those `read` in reverse, and its closing bracket. -/
def listItems (d : Decoder α) :
    (steps depth : Nat) → (isFirst : Bool) → (read : List α) → Cursor → Reading (List α × Cursor)
  | 0, _, _, _, cur => cur.fail .unfinishedList
  | steps + 1, depth, isFirst, read, cur =>
    match cur.nextItem isFirst with
    | .error e => .error e
    | .ok (false, cur) => .ok (read.reverse, cur.skipOne)
    | .ok (true, cur) =>
      match d steps depth cur with
      | .error e => .error e
      | .ok (a, cur) => listItems d steps depth false (a :: read) cur

/-- An array of values of one type. -/
def list (d : Decoder α) : Decoder (List α) := fun steps depth cur =>
  let cur := cur.skipSpaces
  match cur.rest with
  | [] => cur.failNext .unfinishedValue
  | '[' :: rest =>
    if depth ≤ 1 then cur.failNext .tooDeep
    else listItems d steps (depth - 1) true [] (cur.ahead 1 rest)
  | _ => wrongType "a sequence".toList steps cur

/-- The fields of an object after those `read`, and its closing brace. -/
def textFields : (steps : Nat) → (isFirst : Bool) → (read : List (Text × Text)) → Cursor →
    Reading (List (Text × Text) × Cursor)
  | 0, _, _, cur => cur.fail .unfinishedObject
  | steps + 1, isFirst, read, cur =>
    match cur.nextName isFirst with
    | .error e => .error e
    | .ok (false, cur) => .ok (read.reverse, cur.skipOne)
    | .ok (true, cur) =>
      match (do
        let (name, cur) ← Cursor.quoted steps [] cur.skipOne
        let cur ← cur.colon
        let (value, cur) ← text steps 0 cur
        return ((name, value), cur) : Reading ((Text × Text) × Cursor)) with
      | .error e => .error e
      | .ok (entry, cur) => textFields steps false (entry :: read) cur

/-- An object whose values are texts: its fields in the order they stand. -/
def texts : Decoder (List (Text × Text)) := fun steps depth cur =>
  let cur := cur.skipSpaces
  match cur.rest with
  | [] => cur.failNext .unfinishedValue
  | '\x7b' :: rest =>
    if depth ≤ 1 then cur.failNext .tooDeep else textFields steps true [] (cur.ahead 1 rest)
  | _ => wrongType "a map".toList steps cur

/-- A field of a record that is read into `σ`. -/
structure Entry (σ : Type) where
  name : Text
  isRequired : Bool
  isSet : σ → Bool
  read : Decoder (σ → σ)

/-- A field that is stored by `set` and looked up by `get`. -/
def entry {β : Type} (name : String) (isRequired : Bool) (get : σ → Option β)
    (set : σ → β → σ) (d : Decoder β) : Entry σ where
  name := name.toList
  isRequired := isRequired
  isSet s := (get s).isSome
  read := fun steps depth cur => do
    let (b, cur) ← d steps depth cur
    return (fun s => set s b, cur)

/-- The fields of a record from an object, up to its closing brace. -/
def recordFields (entries : List (Entry σ)) :
    (steps depth : Nat) → (isFirst : Bool) → σ → Cursor → Reading (σ × Cursor)
  | 0, _, _, _, cur => cur.fail .unfinishedObject
  | steps + 1, depth, isFirst, s, cur =>
    match cur.nextName isFirst with
    | .error e => .error e
    | .ok (false, cur) =>
      let cur := cur.skipOne
      match entries.find? fun e => e.isRequired && !e.isSet s with
      | some e => cur.fail (.missingField e.name)
      | none => .ok (s, cur)
    | .ok (true, cur) =>
      match (do
        let (name, cur) ← Cursor.quoted steps [] cur.skipOne
        match entries.find? (·.name == name) with
        | none => do
          let cur ← cur.colon
          return (id, ← cur.skipValue steps)
        | some e =>
          if e.isSet s then
            let cur := cur.skipSpaces
            let cur := match cur.rest with
              | '\x7d' :: _ => cur.skipOne
              | _ => cur
            cur.fail (.duplicateField name)
          else do
            let cur ← cur.colon
            e.read steps depth cur : Reading ((σ → σ) × Cursor)) with
      | .error e => .error e
      | .ok (change, cur) => recordFields entries steps depth false (change s) cur

/-- The fields of a record from an array: those of `entries`, of which `done` have been read.  All
from some field on may be absent unless one of them is required. -/
def recordItems (expected : Text) (steps depth : Nat) :
    (entries : List (Entry σ)) → (done : Nat) → σ → Cursor → Reading (σ × Cursor)
  | [], _, s, cur => do return (s, ← cur.closeArray)
  | e :: entries, done, s, cur => do
    let (more, cur) ← cur.nextItem (done == 0)
    if more then
      let (change, cur) ← e.read steps depth cur
      recordItems expected steps depth entries (done + 1) (change s) cur
    else if e.isRequired then cur.skipOne.fail (.tooShort done expected)
    else recordAbsent cur entries (done + 1) s
where
  /-- No further item stands in the array. -/
  recordAbsent (cur : Cursor) : List (Entry σ) → Nat → σ → Reading (σ × Cursor)
    | [], _, s => .ok (s, cur.skipOne)
    | e :: entries, done, s =>
      if e.isRequired then cur.skipOne.fail (.tooShort done expected)
      else recordAbsent cur entries (done + 1) s

/-- A record, from an object or from an array. -/
def record (name : String) (entries : List (Entry σ)) (start : σ) : Decoder σ :=
  fun steps depth cur =>
    let cur := cur.skipSpaces
    let what := "struct ".toList ++ name.toList
    match cur.rest with
    | [] => cur.failNext .unfinishedValue
    | '\x7b' :: rest =>
      if depth ≤ 1 then cur.failNext .tooDeep
      else recordFields entries steps (depth - 1) true start (cur.ahead 1 rest)
    | '[' :: rest =>
      if depth ≤ 1 then cur.failNext .tooDeep
      else
        let elements := if entries.length = 1 then " element".toList else " elements".toList
        recordItems (what ++ " with ".toList ++ Text.ofNat entries.length ++ elements)
          steps (depth - 1) entries 0 start (cur.ahead 1 rest)
    | _ => wrongType what steps cur

/-- What a decoder reads from a whole text. -/
def run (d : Decoder α) (t : Text) : Except ReadError α := do
  let (a, cur) ← d (Cursor.enoughSteps t) maxDepth (Cursor.start t)
  cur.finish
  return a

end Decoder

end MetricsBridge.Json
