/-!
# Binary64 numbers

The finite numbers of the format, kept as a sign, a significand and a power of two, and the
rounding of a ratio of natural numbers to the nearest of them.  All arithmetic is exact until its
one rounding, which takes ties to the even significand.
-/
namespace MetricsBridge

/-- The quotient rounded to the nearest natural number, ties to the even one. -/
def roundHalfEven (num den : Nat) : Nat :=
  let floor := num / den
  let twice := 2 * (num % den)
  if twice < den then floor
  else if den < twice then floor + 1
  else if floor % 2 = 0 then floor
  else floor + 1

/-- A finite binary64 number: `significand * 2 ^ exponent`, negated if `isNegative`.  The
significand lies below `2 ^ 53`, the exponent between -1074 and 971, and the exponent is the least
one that allows this; zero has the exponent -1074 and either sign. -/
structure Double where
  isNegative : Bool
  significand : Nat
  exponent : Int
  deriving DecidableEq, Repr

namespace Double

/-- Zero, with either sign. -/
def zero (isNegative : Bool) : Double :=
  ⟨isNegative, 0, -1074⟩

/-- Zero of either sign. -/
def isZero (x : Double) : Bool :=
  x.significand == 0

/-- `num / den * 2 ^ -exponent` as a ratio. -/
def scaleDown (num den : Nat) (exponent : Int) : Nat × Nat :=
  if 0 ≤ exponent then (num, den * Nat.pow 2 exponent.toNat)
  else (num * Nat.pow 2 (-exponent).toNat, den)

/-- The power of two by which a positive ratio has 53 binary digits before the point. -/
def fittingExponent (num den : Nat) : Int :=
  let guess : Int := num.log2 - den.log2 - 52
  let (n, d) := scaleDown num den guess
  if n / d < Nat.pow 2 52 then guess - 1 else guess

/-- The number nearest to a ratio.  There is none where the format runs over to infinity. -/
def ofRatio? (isNegative : Bool) (num den : Nat) : Option Double :=
  if num = 0 then some (zero isNegative)
  else
    let exponent := max (fittingExponent num den) (-1074)
    let (n, d) := scaleDown num den exponent
    let rounded := roundHalfEven n d
    let (significand, exponent) :=
      if rounded = Nat.pow 2 53 then (Nat.pow 2 52, exponent + 1) else (rounded, exponent)
    if exponent ≤ 971 then some ⟨isNegative, significand, exponent⟩ else none

/-- The magnitude as a ratio. -/
def ratio (x : Double) : Nat × Nat :=
  if 0 ≤ x.exponent then (x.significand * Nat.pow 2 x.exponent.toNat, 1)
  else (x.significand, Nat.pow 2 (-x.exponent).toNat)

/-- The number nearest to a natural number. -/
def ofNat? (isNegative : Bool) (n : Nat) : Option Double :=
  ofRatio? isNegative n 1

/-- The rounded product with a positive number; the sign stays. -/
def scaleBy? (x y : Double) : Option Double :=
  let (n, d) := x.ratio
  let (n', d') := y.ratio
  ofRatio? x.isNegative (n * n') (d * d')

/-- The rounded quotient by a positive number; the sign stays. -/
def divideBy? (x y : Double) : Option Double :=
  let (n, d) := x.ratio
  let (n', d') := y.ratio
  ofRatio? x.isNegative (n * d') (d * n')

end Double

end MetricsBridge
