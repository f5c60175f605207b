import MetricsBridge.Number.Double
import MetricsBridge.Text.Decimal

/-!
# The shortest decimal of a binary64 number

Every number is the nearest one for an interval of reals, to which the ends belong if its
significand is even.  The shortest decimal is the one with the fewest digits in that interval; of
two with as many digits it is the nearer, and of two equally near the one whose last digit is even.
-/
namespace MetricsBridge

/-- The decimal `0.d₁d₂…  * 10 ^ point`, with its digits as a text. -/
structure Decimal where
  digits : Text
  point : Int
  deriving DecidableEq, Repr

namespace Double

/-- Compares the ratios `a / b` and `c * 10 ^ power`. -/
def compareToDecimal (a b c : Nat) (power : Int) : Ordering :=
  if 0 ≤ power then compare a (c * Nat.pow 10 power.toNat * b)
  else compare (a * Nat.pow 10 (-power).toNat) (c * b)

/-- The integer part of `a / b / 10 ^ power`. -/
def decimalFloor (a b : Nat) (power : Int) : Nat :=
  if 0 ≤ power then a / (b * Nat.pow 10 power.toNat) else a * Nat.pow 10 (-power).toNat / b

/-- The number and the ends of its interval, as numerators over one denominator:
the lower end, the number and the upper end. -/
def interval (x : Double) : (Nat × Nat × Nat) × Nat :=
  let m := 4 * x.significand
  let below := if x.significand = Nat.pow 2 52 ∧ -1074 < x.exponent then 1 else 2
  let e := x.exponent - 2
  if 0 ≤ e then
    let s := Nat.pow 2 e.toNat
    (((m - below) * s, m * s, (m + 2) * s), 1)
  else
    ((m - below, m, m + 2), Nat.pow 2 (-e).toNat)

/-- The least power of ten above a positive number. -/
def decimalPoint (x : Double) : Int :=
  let (n, d) := x.ratio
  let guess : Int := ((x.significand.log2 : Int) + x.exponent) * 30103 / 100000
  (([0, 1, 2].map fun k : Int => guess + k).find? fun p =>
    compareToDecimal n d 1 p == .lt).getD (guess + 3)

/-- The decimal with so many digits nearest to the number, if one lies in its interval. -/
def withDigits? (x : Double) (point : Int) (count : Nat) : Option (Nat × Int) :=
  let ((low, mid, high), den) := x.interval
  let power := point - count
  let isEven := x.significand % 2 == 0
  let fits (c : Nat) : Bool :=
    let fromLow := compareToDecimal low den c power
    let toHigh := compareToDecimal high den c power
    (fromLow == .lt || (fromLow == .eq && isEven)) && (toHigh == .gt || (toHigh == .eq && isEven))
  let c := decimalFloor mid den power
  -- Twice the number against the sum of its two neighbours on the grid.
  let nearerBelow := match compareToDecimal (2 * mid) den (2 * c + 1) power with
    | .lt => true
    | .gt => false
    | .eq => c % 2 == 0
  match fits c, fits (c + 1) with
  | true, true => some (if nearerBelow then c else c + 1, power)
  | true, false => some (c, power)
  | false, true => some (c + 1, power)
  | false, false => none

/-- The shortest decimal of the magnitude of a number. -/
def shortest (x : Double) : Decimal :=
  if x.significand = 0 then ⟨['0'], 1⟩
  else
    let point := x.decimalPoint
    let counts := (List.range 17).map (· + 1)
    let (c, power) := (counts.findSome? (x.withDigits? point)).getD (0, 0)
    let digits := Text.ofNat c
    ⟨(digits.reverse.dropWhile (· == '0')).reverse, power + digits.length⟩

end Double

end MetricsBridge
