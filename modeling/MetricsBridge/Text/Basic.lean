/-!
# Text

A text is the list of its characters.  Sizes are counted in UTF-8 bytes, because that is what the
limits on answers are stated in.
-/
namespace MetricsBridge

/-- A text is the list of its characters. -/
abbrev Text := List Char

namespace Text

/-- The number of bytes of the UTF-8 form. -/
def byteLength (t : Text) : Nat :=
  (t.map Char.utf8Size).foldr (· + ·) 0

/-- The texts in order, with `sep` between neighbours. -/
def joinWith (sep : Text) (parts : List Text) : Text :=
  sep.intercalate parts

/-- The pieces between the occurrences of `sep`.  There is always at least one. -/
def splitOn (sep : Char) : Text → List Text
  | [] => [[]]
  | c :: rest =>
    if c = sep then [] :: splitOn sep rest
    else match splitOn sep rest with
      | [] => [[c]]
      | piece :: pieces => (c :: piece) :: pieces

/-- What stands before and after the first `sep`, if there is one. -/
def cutAt (sep : Char) (t : Text) : Option (Text × Text) :=
  match t.dropWhile (· != sep) with
  | [] => none
  | _ :: after => some (t.takeWhile (· != sep), after)

/-- What stands before and after the last `sep`, if there is one. -/
def cutAtLast (sep : Char) (t : Text) : Option (Text × Text) :=
  (cutAt sep t.reverse).map fun (after, before) => (before.reverse, after.reverse)

/-- The rest of the text after `start`, if it begins with it. -/
def dropStart? (start : Text) (t : Text) : Option Text :=
  if start.isPrefixOf t then some (t.drop start.length) else none

/-- The same letter in lower case; only the letters A to Z change. -/
def lowerAscii (c : Char) : Char :=
  if 'A' ≤ c ∧ c ≤ 'Z' then Char.ofNat (c.toNat + 32) else c

/-- The text with the letters A to Z in lower case. -/
def toLowerAscii (t : Text) : Text :=
  t.map lowerAscii

/-- Equality of texts that disregards the case of the letters A to Z. -/
def sameIgnoringCase (s t : Text) : Bool :=
  toLowerAscii s == toLowerAscii t

end Text

end MetricsBridge
