import MetricsBridge.Text.Basic

/-!
# UTF-8

The bytes of a text, the text that bytes stand for, and the repair of bytes that stand for none:
every longest start of a broken sequence is replaced by one U+FFFD.
-/
namespace MetricsBridge.Utf8

/-- The bytes of one character. -/
def encodeChar (c : Char) : List UInt8 :=
  String.utf8EncodeChar c

/-- The bytes of a text. -/
def encode (t : Text) : List UInt8 :=
  t.flatMap encodeChar

/-- A byte that continues a sequence. -/
def isTail (b : UInt8) : Bool :=
  0x80 ≤ b && b ≤ 0xBF

/-- The six low bits of a byte that continues a sequence. -/
def tailBits (b : UInt8) : Nat :=
  b.toNat % 64

/-- How a sequence of bytes starts: with a character and its length, or with so many bytes that
belong to no character. -/
inductive Head where
  | char (c : Char) (length : Nat)
  | broken (length : Nat)
  deriving DecidableEq, Repr

/-- Three bytes, of which the first is `a` and the second must lie in `low` to `high`. -/
def headOfThree (low high a : UInt8) : List UInt8 → Head
  | b :: rest =>
    if low ≤ b && b ≤ high then
      match rest with
      | c :: _ =>
        if isTail c then .char (Char.ofNat (a.toNat % 16 * 4096 + tailBits b * 64 + tailBits c)) 3
        else .broken 2
      | [] => .broken 2
    else .broken 1
  | [] => .broken 1

/-- Four bytes, of which the first is `a` and the second must lie in `low` to `high`. -/
def headOfFour (low high a : UInt8) : List UInt8 → Head
  | b :: rest =>
    if low ≤ b && b ≤ high then
      match rest with
      | c :: rest =>
        if isTail c then
          match rest with
          | d :: _ =>
            if isTail d then
              .char (Char.ofNat
                (a.toNat % 8 * 262144 + tailBits b * 4096 + tailBits c * 64 + tailBits d)) 4
            else .broken 3
          | [] => .broken 3
        else .broken 2
      | [] => .broken 2
    else .broken 1
  | [] => .broken 1

/-- The start of a sequence whose first byte is `a`. -/
def head (a : UInt8) (rest : List UInt8) : Head :=
  if a ≤ 0x7F then .char (Char.ofNat a.toNat) 1
  else if 0xC2 ≤ a && a ≤ 0xDF then
    match rest with
    | b :: _ =>
      if isTail b then .char (Char.ofNat (a.toNat % 32 * 64 + tailBits b)) 2 else .broken 1
    | [] => .broken 1
  else if a == 0xE0 then headOfThree 0xA0 0xBF a rest
  else if a == 0xED then headOfThree 0x80 0x9F a rest
  else if 0xE1 ≤ a && a ≤ 0xEF then headOfThree 0x80 0xBF a rest
  else if a == 0xF0 then headOfFour 0x90 0xBF a rest
  else if 0xF1 ≤ a && a ≤ 0xF3 then headOfFour 0x80 0xBF a rest
  else if a == 0xF4 then headOfFour 0x80 0x8F a rest
  else .broken 1

/-- Reads characters, skipping `skip` bytes first; `onBroken` says what stands for a broken
sequence, and nothing at all is read if it says nothing. -/
def decodeWith (onBroken : Option Char) : (skip : Nat) → List UInt8 → Text → Option Text
  | _, [], read => some read.reverse
  | skip + 1, _ :: rest, read => decodeWith onBroken skip rest read
  | 0, a :: rest, read =>
    match head a rest with
    | .char c length => decodeWith onBroken (length - 1) rest (c :: read)
    | .broken length =>
      match onBroken with
      | some c => decodeWith onBroken (length - 1) rest (c :: read)
      | none => none

/-- The text that bytes stand for, if they are well formed. -/
def decode? (bytes : List UInt8) : Option Text :=
  decodeWith none 0 bytes []

/-- The text that bytes stand for, with U+FFFD for what is not well formed. -/
def decodeLossy (bytes : List UInt8) : Text :=
  (decodeWith (some '\uFFFD') 0 bytes []).getD []

end MetricsBridge.Utf8
