import MetricsBridge.Text.Basic

/-!
# Numerals

Natural numbers and integers as decimal numerals, and the value of a run of digits.
-/
namespace MetricsBridge

/-- The characters 0 to 9. -/
def isDigit (c : Char) : Bool :=
  '0' ≤ c && c ≤ '9'

/-- The value of a decimal digit. -/
def digitValue (c : Char) : Nat :=
  c.toNat - '0'.toNat

/-- The number that a run of decimal digits writes. -/
def digitsValue (t : Text) : Nat :=
  t.foldl (fun n c => 10 * n + digitValue c) 0

namespace Text

/-- A natural number in decimal digits, without leading zeros. -/
def ofNat (n : Nat) : Text :=
  Nat.toDigits 10 n

/-- An integer in decimal digits, after a minus sign if it is negative. -/
def ofInt : Int → Text
  | .ofNat n => ofNat n
  | .negSucc n => '-' :: ofNat (n + 1)

/-- A natural number in at least `width` digits, with zeros in front. -/
def ofNatPadded (width : Nat) (n : Nat) : Text :=
  let digits := ofNat n
  List.replicate (width - digits.length) '0' ++ digits

/-- A natural number below `bound`, written as digits after an optional plus sign. -/
def toNatBelow? (bound : Nat) (t : Text) : Option Nat :=
  let digits := match t with
    | '+' :: rest => rest
    | _ => t
  if digits != [] && digits.all isDigit && digitsValue digits < bound then
    some (digitsValue digits)
  else
    none

end Text

end MetricsBridge
