import MetricsBridge.Number.Double
import MetricsBridge.Text.Decimal

/-!
# Numbers as people type them

A sign, digits with a point anywhere among them, and a power of ten; or one of the words for
infinity and for what is no number.  A literal stands for the nearest binary64 number.
-/
namespace MetricsBridge

/-- What a literal says, before any rounding: `digits * 10 ^ power`, infinity, or no number. -/
inductive Literal where
  | decimal (isNegative : Bool) (digits : Nat) (power : Int)
  | infinite (isNegative : Bool)
  | notANumber
  deriving DecidableEq, Repr

namespace Literal

/-- Digits after an optional sign, as the power of ten they write. -/
def power? (t : Text) : Option Int :=
  let (isNegative, digits) := match t with
    | '-' :: rest => (true, rest)
    | '+' :: rest => (false, rest)
    | _ => (false, t)
  if digits != [] && digits.all isDigit then
    let n : Int := digitsValue digits
    some (if isNegative then -n else n)
  else none

/-- Digits with an optional point and an optional power of ten. -/
def decimal? (isNegative : Bool) (t : Text) : Option Literal :=
  let whole := t.takeWhile isDigit
  let afterWhole := t.dropWhile isDigit
  let (fraction, rest) := match afterWhole with
    | '.' :: more => (more.takeWhile isDigit, more.dropWhile isDigit)
    | _ => ([], afterWhole)
  if whole = [] ∧ fraction = [] then none
  else
    let digits := digitsValue (whole ++ fraction)
    match rest with
    | [] => some (.decimal isNegative digits (-fraction.length))
    | c :: more =>
      if Text.lowerAscii c = 'e' then
        (power? more).map fun power => .decimal isNegative digits (power - fraction.length)
      else none

/-- The literal that a whole text writes. -/
def parse? (t : Text) : Option Literal :=
  let (isNegative, rest) := match t with
    | '-' :: rest => (true, rest)
    | '+' :: rest => (false, rest)
    | _ => (false, t)
  let word := Text.toLowerAscii rest
  if word = "inf".toList ∨ word = "infinity".toList then some (.infinite isNegative)
  else if word = "nan".toList then some .notANumber
  else decimal? isNegative rest

/-- The number nearest to the literal.  A literal beyond the range of the format has none: its
leading digit stands above the place of `10 ^ 310`, while one below that of `10 ^ -330` is zero. -/
def toDouble? : Literal → Option Double
  | .decimal isNegative digits power =>
    let place := (Text.ofNat digits).length + power
    if digits = 0 ∨ place < -330 then some (.zero isNegative)
    else if 310 < place then none
    else if 0 ≤ power then Double.ofRatio? isNegative (digits * Nat.pow 10 power.toNat) 1
    else Double.ofRatio? isNegative digits (Nat.pow 10 (-power).toNat)
  | .infinite _ => none
  | .notANumber => none

end Literal

end MetricsBridge
