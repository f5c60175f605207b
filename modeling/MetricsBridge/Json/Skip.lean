import MetricsBridge.Json.Reader

/-!
# Passing over values

A field that no one asked for is passed over.  Its tokens are checked, but not its numbers' range,
the pairing of its surrogates or the depth of its nesting.
-/
namespace MetricsBridge.Json.Cursor

/-- The digits and exponent that may follow a number's integer part. -/
def skipExponent (cur : Cursor) : Reading Cursor :=
  let cur := match cur.rest with
    | '+' :: rest => cur.ahead 1 rest
    | '-' :: rest => cur.ahead 1 rest
    | _ => cur
  if startsWithDigit cur.rest then .ok cur.skipDigits else cur.failNext .invalidNumber

/-- An exponent, if one follows. -/
def skipMaybeExponent (cur : Cursor) : Reading Cursor :=
  match cur.rest with
  | 'e' :: rest => (cur.ahead 1 rest).skipExponent
  | 'E' :: rest => (cur.ahead 1 rest).skipExponent
  | _ => .ok cur

/-- What may follow the digits before the point. -/
def skipAfterInteger (cur : Cursor) : Reading Cursor :=
  match cur.rest with
  | '.' :: rest =>
    let cur := cur.ahead 1 rest
    if startsWithDigit cur.rest then cur.skipDigits.skipMaybeExponent
    else cur.failNext .invalidNumber
  | _ => cur.skipMaybeExponent

/-- Past a number, of which a minus sign has been read. -/
def skipNumeral (cur : Cursor) : Reading Cursor :=
  match cur.rest with
  | '0' :: rest =>
    let cur := cur.ahead 1 rest
    if startsWithDigit rest then cur.failNext .invalidNumber else cur.skipAfterInteger
  | _ =>
    if startsWithDigit cur.rest then cur.skipDigits.skipAfterInteger
    else cur.failNext .invalidNumber

/-- Past the rest of a quoted text. -/
def skipQuoted : (steps : Nat) → Cursor → Reading Cursor
  | 0, cur => cur.fail .unfinishedText
  | steps + 1, cur =>
    match cur.rest with
    | [] => cur.fail .unfinishedText
    | c :: rest =>
      if c = '"' then .ok (cur.ahead 1 rest)
      else if c = '\\' then
        let cur := cur.ahead 1 rest
        match cur.rest with
        | [] => cur.fail .unfinishedText
        | d :: rest =>
          if d = 'u' then
            match (cur.ahead 1 rest).hexEscape with
            | .ok (_, cur) => skipQuoted steps cur
            | .error e => .error e
          else if (escaped? d).isSome then skipQuoted steps (cur.ahead 1 rest)
          else cur.failNext .invalidEscape
      else if c.toNat < 0x20 then cur.fail .controlCharacter
      else skipQuoted steps (cur.past c rest)

/-- A container that is open: an array or an object. -/
inductive Container where
  | array
  | object
  deriving DecidableEq, Repr

/-- Past a name and its colon. -/
def skipName (steps : Nat) (cur : Cursor) : Reading Cursor :=
  let cur := cur.skipSpaces
  match cur.rest with
  | [] => cur.failNext .unfinishedObject
  | c :: rest =>
    if c = '"' then do
      let cur ← skipQuoted steps (cur.ahead 1 rest)
      cur.colon
    else cur.failNext .keyNotText

/-- Past the closing brackets that follow, up to the next item of an open container; with
`afterItem` it has to be parted by a comma.  When no container is left open nothing is due. -/
def skipCloses : (steps : Nat) → (afterItem : Bool) → List Container → Cursor →
    Reading (List Container × Cursor)
  | 0, _, _, cur => cur.fail .unfinishedValue
  | _, _, [], cur => .ok ([], cur)
  | steps + 1, afterItem, top :: outer, cur =>
    let cur := cur.skipSpaces
    match cur.rest with
    | [] => cur.failNext (if top = .array then .unfinishedList else .unfinishedObject)
    | c :: rest =>
      if c = ',' ∧ afterItem then .ok (top :: outer, cur.ahead 1 rest)
      else if c = ']' ∧ top = .array then skipCloses steps true outer (cur.ahead 1 rest)
      else if c = '\x7d' ∧ top = .object then skipCloses steps true outer (cur.ahead 1 rest)
      else if afterItem then
        cur.failNext (if top = .array then .expectedListEnd else .expectedObjectEnd)
      else .ok (top :: outer, cur)

/-- Past a scalar, or into a container. -/
def skipToken (steps : Nat) (cur : Cursor) : Reading (Option Container × Cursor) :=
  let cur := cur.skipSpaces
  match cur.rest with
  | [] => cur.failNext .unfinishedValue
  | c :: rest =>
    let next := cur.ahead 1 rest
    if c = 'n' then return (none, ← next.word "ull".toList)
    else if c = 't' then return (none, ← next.word "rue".toList)
    else if c = 'f' then return (none, ← next.word "alse".toList)
    else if c = '-' then return (none, ← next.skipNumeral)
    else if isDigit c then return (none, ← cur.skipNumeral)
    else if c = '"' then return (none, ← skipQuoted steps next)
    else if c = '[' then return (some .array, next)
    else if c = '\x7b' then return (some .object, next)
    else cur.failNext .expectedValue

/-- Past a value inside the containers that are open. -/
def skipInside : (steps : Nat) → List Container → Cursor → Reading Cursor
  | 0, _, cur => cur.fail .unfinishedValue
  | steps + 1, outer, cur =>
    match (do
      let (opened, cur) ← skipToken steps cur
      let (opened, cur) ← match opened with
        | some container => skipCloses steps false (container :: outer) cur
        | none => skipCloses steps true outer cur
      match opened with
      | .object :: _ => return (opened, ← skipName steps cur)
      | _ => return (opened, cur) : Reading (List Container × Cursor)) with
    | .error e => .error e
    | .ok ([], cur) => .ok cur
    | .ok (opened, cur) => skipInside steps opened cur

/-- Past a value. -/
def skipValue (steps : Nat) (cur : Cursor) : Reading Cursor :=
  skipInside steps [] cur

end MetricsBridge.Json.Cursor
