import MetricsBridge.Number.Literal
import MetricsBridge.Text.Blank

/-!
# Spans of time

A span is written in parts, such as `1h30m`, or as a number of seconds.  It counts nanoseconds, and
its whole seconds stay below `2 ^ 64`.
-/
namespace MetricsBridge

/-- A span of time in nanoseconds. -/
structure Span where
  nanos : Nat
  deriving DecidableEq, Repr

namespace Span

/-- A span of so many milliseconds. -/
def ofMillis (n : Nat) : Span :=
  ⟨n * 1000000⟩

/-- A span of so many seconds. -/
def ofSeconds (n : Nat) : Span :=
  ⟨n * 1000000000⟩

/-- The sum of two spans, unless it has too many seconds. -/
def add? (a b : Span) : Option Span :=
  let sum := a.nanos + b.nanos
  if sum / 1000000000 < Nat.pow 2 64 then some ⟨sum⟩ else none

/-- The longer of two spans. -/
def longer (a b : Span) : Span :=
  if a.nanos < b.nanos then b else a

/-- A unit of time and the milliseconds it has. -/
structure TimeUnit where
  name : Text
  millis : Nat

/-- The units in the order in which a span names them.  A year has 365 days. -/
def units : List TimeUnit :=
  [⟨"y".toList, 365 * 24 * 3600000⟩, ⟨"w".toList, 7 * 24 * 3600000⟩, ⟨"d".toList, 24 * 3600000⟩,
   ⟨"h".toList, 3600000⟩, ⟨"m".toList, 60000⟩, ⟨"s".toList, 1000⟩, ⟨"ms".toList, 1⟩]

/-- The part at the start of a text: its number and its unit, and what follows. -/
def part? (t : Text) : Option (Nat × Text × Text) :=
  let digits := t.takeWhile isDigit
  let rest := t.dropWhile isDigit
  let unit := rest.takeWhile Char.isAlpha
  if digits = [] then none else some (digitsValue digits, unit, rest.dropWhile Char.isAlpha)

/-- The milliseconds of the parts of a text, which may name each of the units left at most once and
in order.  Every number, product and sum has to stay below `2 ^ 64`. -/
def partsMillis? : List TimeUnit → Text → Option Nat
  | [], t => if t = [] then some 0 else none
  | unit :: units, t =>
    if t = [] then some 0
    else do
      let (number, name, rest) ← part? t
      if name = unit.name then
        let more ← partsMillis? units rest
        let sum := number * unit.millis + more
        if sum < Nat.pow 2 64 then some sum else none
      else partsMillis? units t

/-- The span of a number of seconds, which is rounded to nanoseconds.  It must not be negative and
has to stay below `2 ^ 64`. -/
def ofDouble? (seconds : Double) : Option Span :=
  if seconds.isNegative ∧ ¬ seconds.isZero then none
  else
    let (n, d) := seconds.ratio
    if n / d < Nat.pow 2 64 then some ⟨roundHalfEven (n * 1000000000) d⟩ else none

/-- The span that a text means. -/
def parse? (input : Text) : Option Span :=
  let t := Text.trim input
  if t = [] then none
  else match Literal.parse? t with
    | some literal => literal.toDouble?.bind ofDouble?
    | none => (partsMillis? units t).map ofMillis

/-- The text of a span that is longer than nothing, without the blanks around it. -/
def step? (input : Text) : Option Text := do
  let span ← parse? input
  if span.nanos = 0 then none else some (Text.trim input)

end Span

end MetricsBridge
