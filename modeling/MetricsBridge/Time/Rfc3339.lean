import MetricsBridge.Text.Decimal
import MetricsBridge.Time.Calendar

/-!
# RFC 3339 timestamps

Reading of `2023-01-01T00:00:00.250+01:00`.  The date and the time may be parted by `T`, `t` or a
space, digits of the fraction beyond the ninth are dropped, and the sixtieth second of a minute is
a leap second.
-/
namespace MetricsBridge.Rfc3339

/-- An instant: whole seconds since the epoch and nanoseconds after them.  In a leap second the
nanoseconds run on from one to two thousand million. -/
structure Instant where
  seconds : Int
  nanos : Nat
  deriving DecidableEq, Repr

/-- So many digits, as the number they write, and what follows them. -/
def digits? (count : Nat) (t : Text) : Option (Nat × Text) :=
  let digits := t.take count
  if digits.length = count ∧ digits.all isDigit then some (digitsValue digits, t.drop count)
  else none

/-- What follows the character `c`, which has to come first. -/
def after? (c : Char) : Text → Option Text
  | [] => none
  | d :: rest => if d = c then some rest else none

/-- The nanoseconds that a fraction of a second writes, and what follows it. -/
def fraction? : Text → Option (Nat × Text)
  | '.' :: rest =>
    let digits := rest.takeWhile isDigit
    if digits = [] then none
    else
      let kept := digits.take 9
      some (digitsValue kept * Nat.pow 10 (9 - kept.length), rest.dropWhile isDigit)
  | rest => some (0, rest)

/-- The offset from UTC in seconds; nothing may follow it. -/
def offset? : Text → Option Int
  | ['Z'] => some 0
  | ['z'] => some 0
  | sign :: rest => do
    let isWest ← if sign = '+' then some false
      else if sign = '-' ∨ sign = '\u2212' then some true
      else none
    let (hours, rest) ← digits? 2 rest
    let rest ← after? ':' rest
    let (minutes, rest) ← digits? 2 rest
    if rest = [] ∧ hours ≤ 23 ∧ minutes ≤ 59 then
      let seconds : Int := hours * 3600 + minutes * 60
      some (if isWest then -seconds else seconds)
    else none
  | [] => none

/-- The instant that a text names. -/
def parse? (t : Text) : Option Instant := do
  let (year, t) ← digits? 4 t
  let t ← after? '-' t
  let (month, t) ← digits? 2 t
  let t ← after? '-' t
  let (day, t) ← digits? 2 t
  let t ← match t with
    | c :: rest => if c = 'T' ∨ c = 't' ∨ c = ' ' then some rest else none
    | [] => none
  let (hour, t) ← digits? 2 t
  let t ← after? ':' t
  let (minute, t) ← digits? 2 t
  let t ← after? ':' t
  let (second, t) ← digits? 2 t
  let (nanos, t) ← fraction? t
  let offset ← offset? t
  let date : Date := ⟨year, month, day⟩
  if date.exists? ∧ hour ≤ 23 ∧ minute ≤ 59 ∧ second ≤ 60 then
    let leap := if second = 60 then 1 else 0
    let ofDay : Int := hour * 3600 + minute * 60 + (second - leap : Nat)
    some ⟨date.sinceEpoch * 86400 + ofDay - offset, nanos + leap * 1000000000⟩
  else none

end MetricsBridge.Rfc3339
