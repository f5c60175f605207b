import MetricsBridge.Text.Basic

/-!
# Base64

The standard alphabet, with padding.
-/
namespace MetricsBridge.Base64

/-- The 64 digits in order. -/
def alphabet : Text :=
  "ABCDEFGHIJKLMNOPQRSTUVWXYZabcdefghijklmnopqrstuvwxyz0123456789+/".toList

/-- The digit of a value below 64. -/
def digit (n : Nat) : Char :=
  alphabet.getD n '='

/-- Four digits for every three bytes; what is missing in the last group is padded. -/
def encode : List UInt8 → Text
  | [] => []
  | [a] =>
    let n := a.toNat * 65536
    [digit (n / 262144), digit (n / 4096 % 64), '=', '=']
  | [a, b] =>
    let n := a.toNat * 65536 + b.toNat * 256
    [digit (n / 262144), digit (n / 4096 % 64), digit (n / 64 % 64), '=']
  | a :: b :: c :: rest =>
    let n := a.toNat * 65536 + b.toNat * 256 + c.toNat
    digit (n / 262144) :: digit (n / 4096 % 64) :: digit (n / 64 % 64) :: digit (n % 64)
      :: encode rest

/-- The value of a digit. -/
def digitValue? (c : Char) : Option Nat :=
  alphabet.findIdx? (· == c)

/-- The bytes that padded groups of four digits stand for. -/
def decode? : Text → Option (List UInt8)
  | [] => some []
  | [a, b, '=', '='] => do
    let n := (← digitValue? a) * 64 + (← digitValue? b)
    return [UInt8.ofNat (n / 16)]
  | [a, b, c, '='] => do
    let n := (← digitValue? a) * 4096 + (← digitValue? b) * 64 + (← digitValue? c)
    return [UInt8.ofNat (n / 1024), UInt8.ofNat (n / 4 % 256)]
  | a :: b :: c :: d :: rest => do
    let n := (← digitValue? a) * 262144 + (← digitValue? b) * 4096 + (← digitValue? c) * 64
      + (← digitValue? d)
    return UInt8.ofNat (n / 65536) :: UInt8.ofNat (n / 256 % 256) :: UInt8.ofNat (n % 256)
      :: (← decode? rest)
  | _ => none

end MetricsBridge.Base64
