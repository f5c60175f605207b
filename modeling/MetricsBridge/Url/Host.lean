import MetricsBridge.Url.Basic

/-!
# Hosts

A host is a name, an IPv4 address, of which the older spellings count too, or an IPv6 address in
brackets.  It is kept in its shortest form, in lower case.  Names are ASCII here: `parseHost` leaves
out the mapping of other names (IDNA).
-/
namespace MetricsBridge.Url

/-! ### IPv4 -/

/-- The number of a part of an IPv4 address, in decimal, octal after `0`, or hexadecimal after
`0x`. -/
def ipv4Number? (t : Text) : Option Nat :=
  let radix (base : Nat) (digits : Text) : Option Nat :=
    digits.foldlM (fun n c => do
      let d ← hexValue? c
      if d < base then some (base * n + d) else none) 0
  match t with
  | [] => none
  | '0' :: 'x' :: digits => radix 16 digits
  | '0' :: 'X' :: digits => radix 16 digits
  | '0' :: c :: digits => radix 8 (c :: digits)
  | _ => radix 10 t

/-- The parts of a name between its dots; one dot at the end counts for nothing. -/
def dottedParts (t : Text) : List Text :=
  let parts := Text.splitOn '.' t
  if 1 < parts.length ∧ parts.getLast? = some [] then parts.dropLast else parts

/-- The last part of the name is a number, so that the name has to be an IPv4 address. -/
def endsInNumber (t : Text) : Bool :=
  match (dottedParts t).getLast? with
  | some last => (last != [] && last.all isDigit) || (ipv4Number? last).isSome
  | none => false

/-- The address that one to four numbers give: the last fills the bytes that the others leave. -/
def ipv4Value? (numbers : List Nat) : Option Nat :=
  match numbers.reverse with
  | [] => none
  | last :: others =>
    if 3 < others.length ∨ others.any (255 < ·) ∨ Nat.pow 256 (4 - others.length) ≤ last then none
    else
      some (others.reverse.foldl (fun n b => 256 * n + b) 0 * Nat.pow 256 (4 - others.length) + last)

/-- The usual form of an IPv4 address. -/
def renderIpv4 (n : Nat) : Text :=
  Text.joinWith ['.']
    ([n / 16777216, n / 65536 % 256, n / 256 % 256, n % 256].map Text.ofNat)

/-- A name that ends in a number, as an IPv4 address. -/
def parseIpv4 (t : Text) : Except Fault Text :=
  match (dottedParts t).mapM ipv4Number? with
  | none => .error .invalidIpv4
  | some numbers =>
    match ipv4Value? numbers with
    | some n => .ok (renderIpv4 n)
    | none => .error .invalidIpv4

/-! ### IPv6 -/

/-- Up to four hexadecimal digits: their number, how many there are, and what follows. -/
def hexPiece (t : Text) : Nat × Nat × Text :=
  let digits := (t.take 4).takeWhile fun c => (hexValue? c).isSome
  ((hexNumber? digits).getD 0, digits.length, t.drop digits.length)

/-- A decimal number below 256 without leading zeros. -/
def octet? (t : Text) : Option (Nat × Text) :=
  let digits := t.takeWhile isDigit
  let n := digitsValue digits
  if digits = [] ∨ 255 < n ∨ (digits.head? = some '0' ∧ digits ≠ ['0']) then none
  else some (n, t.drop digits.length)

/-- Four decimal numbers with dots between them, as two pieces. -/
def dottedQuad? (t : Text) : Option (List Nat) := do
  let dot : Text → Option Text
    | '.' :: rest => some rest
    | _ => none
  let (a, t) ← octet? t
  let (b, t) ← octet? (← dot t)
  let (c, t) ← octet? (← dot t)
  let (d, t) ← octet? (← dot t)
  if t = [] then some [256 * a + b, 256 * c + d] else none

/-- The pieces of an IPv6 address after those `read`, and the place where zeros are left out. -/
def ipv6Pieces : (steps : Nat) → (read : List Nat) → (gap : Option Nat) → Text →
    Option (List Nat × Option Nat)
  | 0, _, _, _ => none
  | _, read, gap, [] => some (read, gap)
  | steps + 1, read, gap, c :: rest =>
    if read.length = 8 then none
    else if c = ':' then
      if gap.isSome then none
      else ipv6Pieces steps (read ++ [0]) (some (read.length + 1)) rest
    else
      let (value, count, after) := hexPiece (c :: rest)
      match after with
      | [] => some (read ++ [value], gap)
      | '.' :: _ =>
        if count = 0 ∨ 6 < read.length then none
        else (dottedQuad? (c :: rest)).map fun pieces => (read ++ pieces, gap)
      | ':' :: more => if more = [] then none else ipv6Pieces steps (read ++ [value]) gap more
      | _ => none

/-- The eight pieces of an IPv6 address. -/
def parseIpv6? (t : Text) : Option (List Nat) := do
  let start : List Nat × Option Nat × Text ← match t with
    | ':' :: ':' :: rest => some ([0], some 1, rest)
    | ':' :: _ => none
    | [] => none
    | [_] => none
    | _ => some ([], none, t)
  let (read, gap, rest) := start
  let (pieces, gap) ← ipv6Pieces (t.length + 1) read gap rest
  match gap with
  | some g =>
    some (pieces.take g ++ List.replicate (8 - pieces.length) 0 ++ pieces.drop g)
  | none => if pieces.length = 8 then some pieces else none

/-- The start and the length of the first of the longest runs of zeros. -/
def longestZeros (pieces : List Nat) : Nat × Nat :=
  (List.range pieces.length).foldl (fun (best : Nat × Nat) start =>
    let count := ((pieces.drop start).takeWhile (· == 0)).length
    if best.2 < count then (start, count) else best) (0, 0)

/-- The shortest form of an IPv6 address: the longest run of two zeros or more is left out. -/
def renderIpv6 (pieces : List Nat) : Text :=
  let join (ps : List Nat) := Text.joinWith [':'] (ps.map Text.ofNatHex)
  let (start, count) := longestZeros pieces
  if count < 2 then join pieces
  else join (pieces.take start) ++ "::".toList ++ join (pieces.drop (start + count))

/-- What stands between brackets at the end of a host. -/
def bracketed (t : Text) : Except Fault Text :=
  match t.reverse with
  | ']' :: inner =>
    match parseIpv6? inner.reverse with
    | some pieces => .ok ('[' :: renderIpv6 pieces ++ [']'])
    | none => .error .invalidIpv6
  | _ => .error .invalidIpv6

/-! ### Names -/

/-- A character that may stand in the name of a host, as far as it is ASCII.  No other character
may, though the URL library maps most of them. -/
def inHostName (c : Char) : Bool :=
  0x20 < c.toNat && c.toNat < 0x7F && !"%#/:<>?@[\\]^|".toList.contains c

/-- The host of an address whose scheme is a known one.  A name outside ASCII is refused, and a
label that starts with `xn--` is taken as it is, where the URL library maps the one to such labels
and checks the other. -/
def parseHost (t : Text) : Except Fault Text :=
  match t with
  | '[' :: rest => bracketed rest
  | _ =>
    match Percent.decode? t with
    | none => .error .invalidHostName
    | some name =>
      if !name.all inHostName then .error .invalidHostName
      else if name = [] then .error .emptyHost
      else
        let name := Text.toLowerAscii name
        if endsInNumber name then parseIpv4 name else .ok name

/-- A character that may not stand in a host of any scheme. -/
def isForbiddenInHost (c : Char) : Bool :=
  "\x00\t\n\r #/:<>?@[\\]^|".toList.contains c

/-- The host of an address whose scheme says nothing about hosts. -/
def parseForeignHost (t : Text) : Except Fault Text :=
  match t with
  | '[' :: rest => bracketed rest
  | _ =>
    if t.any isForbiddenInHost then .error .invalidHostCharacter
    else .ok (Percent.encode (fun c => 0x20 ≤ c.toNat && c.toNat < 0x7F) t)

end MetricsBridge.Url
