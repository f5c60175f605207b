import MetricsBridge.Url.Basic

/-!
# Paths

Dot segments are resolved while a path is read: one dot names the place reached, two dots the place
above it.  The place above a segment that looks like the letter of a drive is that segment itself.
-/
namespace MetricsBridge.Url

/-- A segment for the place reached. -/
def isHere (segment : Text) : Bool :=
  [".", "%2e"].any fun s => Text.sameIgnoringCase segment s.toList

/-- A segment for the place above. -/
def isUp (segment : Text) : Bool :=
  ["..", ".%2e", "%2e.", "%2e%2e"].any fun s => Text.sameIgnoringCase segment s.toList

/-- A letter and a colon or a bar. -/
def isDrive : Text → Bool
  | [letter, mark] => letter.isAlpha && (mark == ':' || mark == '|')
  | _ => false

/-- The place above a place, of which the last segment stands first. -/
def above : List Text → List Text
  | [] => []
  | last :: outer => if isDrive last then last :: outer else outer

/-- The place that segments lead to from the place `reached`, both with their last segment first.
The last of the segments ends the path. -/
def resolve (reached : List Text) : List Text → List Text
  | [] => reached
  | [last] =>
    if isUp last then [] :: above reached
    else if isHere last then [] :: reached
    else last :: reached
  | segment :: rest =>
    if isUp segment then resolve (above reached) rest
    else if isHere segment then resolve reached rest
    else resolve (segment :: reached) rest

/-- The path that a text after the host writes, with or without its first slash.  A backslash is a
slash. -/
def parsePath (t : Text) : List Text :=
  let t := t.map fun c => if c = '\\' then '/' else c
  let t := match t with
    | '/' :: rest => rest
    | _ => t
  (resolve [] ((Text.splitOn '/' t).map (Percent.encode inPath))).reverse

/-- The path without the empty segment at its end, if it has another. -/
def dropEmptyEnd (path : List Text) : List Text :=
  if 1 < path.length ∧ path.getLast? = some [] then path.dropLast else path

/-- The path with another segment, in place of the only one if that is empty. -/
def addSegment (path : List Text) (segment : Text) : List Text :=
  if path = [[]] then [segment] else path ++ [segment]

/-- The path with a segment that holds any text.  Dots alone are not added as they are: they name
the place that they would name when the path is read. -/
def push (path : List Text) (t : Text) : List Text :=
  if t = ['.'] ∨ t = ['.', '.'] then path
  else
    let segment := Percent.encode inSegment (t.filter fun c => !isIgnored c)
    if segment = ['.'] then addSegment path []
    else if segment = ['.', '.'] then
      if path = [[]] then path else ([] :: above path.reverse).reverse
    else addSegment path segment

/-- The path with further segments. -/
def extend (path : List Text) (texts : List Text) : List Text :=
  texts.foldl push (dropEmptyEnd path)

end MetricsBridge.Url
