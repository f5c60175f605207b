import MetricsBridge.Text.Basic

/-!
# Hexadecimal digits
-/
namespace MetricsBridge

/-- The value of a hexadecimal digit of either case. -/
def hexValue? (c : Char) : Option Nat :=
  if '0' ≤ c ∧ c ≤ '9' then some (c.toNat - '0'.toNat)
  else if 'a' ≤ c ∧ c ≤ 'f' then some (c.toNat - 'a'.toNat + 10)
  else if 'A' ≤ c ∧ c ≤ 'F' then some (c.toNat - 'A'.toNat + 10)
  else none

/-- The number that hexadecimal digits write, unless one of them is no digit. -/
def hexNumber? (t : Text) : Option Nat :=
  t.foldlM (fun n c => (hexValue? c).map (16 * n + ·)) 0

/-- The hexadecimal digit of a value below 16, in lower case. -/
def hexDigit (n : Nat) : Char :=
  Nat.digitChar n

/-- The hexadecimal digit of a value below 16, in upper case. -/
def hexDigitUpper (n : Nat) : Char :=
  (Nat.digitChar n).toUpper

/-- A number in hexadecimal digits, in lower case and without leading zeros. -/
def Text.ofNatHex (n : Nat) : Text :=
  Nat.toDigits 16 n

/-- The bytes that pairs of hexadecimal digits write. -/
def Text.hexBytes? : Text → Option (List UInt8)
  | [] => some []
  | [_] => none
  | high :: low :: rest => do
    let h ← hexValue? high
    let l ← hexValue? low
    return UInt8.ofNat (16 * h + l) :: (← hexBytes? rest)

end MetricsBridge
