import MetricsBridge.Json.Basic
import MetricsBridge.Json.Cursor

/-!
# Reading numbers

Digits are taken exactly while their value stays below `2 ^ 64`; further ones only move the point.
A number with a point, an exponent or too large a magnitude is binary64: its digits are rounded to
the format and then scaled by a power of ten of the format, in steps of at most `1e308`.
-/
namespace MetricsBridge.Json

/-- Takes digits as long as their value stays below `bound`: the value, how many digits were taken,
and what follows. -/
def boundedDigits (bound value taken : Nat) : Text → Nat × Nat × Text
  | [] => (value, taken, [])
  | c :: rest =>
    if isDigit c ∧ 10 * value + digitValue c < bound then
      boundedDigits bound (10 * value + digitValue c) (taken + 1) rest
    else (value, taken, c :: rest)

/-- The text starts with a digit. -/
def startsWithDigit : Text → Bool
  | [] => false
  | c :: _ => isDigit c

/-- The power of ten of the format. -/
def powerOfTen (n : Nat) : Double :=
  (Double.ofNat? false (Nat.pow 10 n)).getD (.zero false)

/-- Scales by a power of ten.  Powers below `1e-308` are taken in several steps, of which three
already end at zero. -/
def scaleByTen? (x : Double) (power : Int) : (steps : Nat) → Option Double
  | 0 => some (.zero x.isNegative)
  | steps + 1 =>
    if power.natAbs ≤ 308 then
      if 0 ≤ power then x.scaleBy? (powerOfTen power.natAbs)
      else x.divideBy? (powerOfTen power.natAbs)
    else if x.isZero then some x
    else if 0 ≤ power then none
    else do scaleByTen? (← x.divideBy? (powerOfTen 308)) (power + 308) steps

namespace Cursor

/-- The number `digits * 10 ^ power`, read up to the cursor. -/
def double (cur : Cursor) (isNegative : Bool) (digits : Nat) (power : Int) :
    Reading (Numeral × Cursor) :=
  match (Double.ofNat? isNegative digits).bind (scaleByTen? · power 4) with
  | some x => .ok (.double x, cur)
  | none => cur.fail .numberOutOfRange

/-- Past all the digits that follow. -/
def skipDigits (cur : Cursor) : Cursor :=
  cur.ahead (cur.rest.takeWhile isDigit).length (cur.rest.dropWhile isDigit)

/-- What follows the letter of an exponent, after `digits * 10 ^ power`. -/
def exponent (cur : Cursor) (isNegative : Bool) (digits : Nat) (power : Int) :
    Reading (Numeral × Cursor) :=
  let (isDown, cur) := match cur.rest with
    | '+' :: rest => (false, cur.ahead 1 rest)
    | '-' :: rest => (true, cur.ahead 1 rest)
    | _ => (false, cur)
  match cur.rest with
  | [] => cur.fail .unfinishedValue
  | c :: _ =>
    if isDigit c then
      let (value, taken, rest) := boundedDigits (Nat.pow 2 31) 0 0 cur.rest
      let cur := cur.ahead taken rest
      if startsWithDigit rest then
        -- The exponent itself is out of range.
        if digits ≠ 0 ∧ isDown = false then cur.failNext .numberOutOfRange
        else .ok (.double (.zero isNegative), cur.skipDigits)
      else cur.double isNegative digits (if isDown then power - value else power + value)
    else cur.failNext .invalidNumber

/-- An exponent, if one follows, after `digits * 10 ^ power`. -/
def maybeExponent (cur : Cursor) (isNegative : Bool) (digits : Nat) (power : Int) :
    Reading (Numeral × Cursor) :=
  match cur.rest with
  | 'e' :: rest => (cur.ahead 1 rest).exponent isNegative digits power
  | 'E' :: rest => (cur.ahead 1 rest).exponent isNegative digits power
  | _ => cur.double isNegative digits power

/-- What follows a point, after `digits * 10 ^ power`. -/
def fraction (cur : Cursor) (isNegative : Bool) (digits : Nat) (power : Int) :
    Reading (Numeral × Cursor) :=
  let (value, taken, rest) := boundedDigits (Nat.pow 2 64) digits 0 cur.rest
  let cur := cur.ahead taken rest
  if startsWithDigit rest then
    cur.skipDigits.maybeExponent isNegative value (power - taken)
  else if taken = 0 then
    match rest with
    | [] => cur.fail .unfinishedValue
    | _ => cur.failNext .invalidNumber
  else cur.maybeExponent isNegative value (power - taken)

/-- What may follow the digits before the point; `skipped` of them are not in `digits`. -/
def afterInteger (cur : Cursor) (isNegative : Bool) (digits skipped : Nat) :
    Reading (Numeral × Cursor) :=
  match cur.rest with
  | '.' :: rest => (cur.ahead 1 rest).fraction isNegative digits skipped
  | 'e' :: _ => cur.maybeExponent isNegative digits skipped
  | 'E' :: _ => cur.maybeExponent isNegative digits skipped
  | _ =>
    if skipped ≠ 0 then cur.double isNegative digits skipped
    else if isNegative = false then .ok (.natural digits, cur)
    else if digits = 0 ∨ Nat.pow 2 63 < digits then cur.double true digits 0
    else .ok (.negative digits, cur)

/-- A number, after its minus sign if it has one. -/
def numeral (cur : Cursor) (isNegative : Bool) : Reading (Numeral × Cursor) :=
  match cur.rest with
  | [] => cur.fail .unfinishedValue
  | '0' :: rest =>
    let cur := cur.ahead 1 rest
    if startsWithDigit rest then cur.failNext .invalidNumber
    else cur.afterInteger isNegative 0 0
  | c :: _ =>
    if isDigit c then
      let (value, taken, rest) := boundedDigits (Nat.pow 2 64) 0 0 cur.rest
      let after := cur.ahead taken rest
      if startsWithDigit rest then
        after.skipDigits.afterInteger isNegative value (rest.takeWhile isDigit).length
      else after.afterInteger isNegative value 0
    else cur.failNext .invalidNumber

end Cursor

end MetricsBridge.Json
