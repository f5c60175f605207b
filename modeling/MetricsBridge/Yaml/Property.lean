import MetricsBridge.Text.Decimal
import MetricsBridge.Text.Hex
import MetricsBridge.Text.Utf8
import MetricsBridge.Yaml.Place

/-!
# Anchors, tags and directives of a YAML text
-/
namespace MetricsBridge.Yaml

/-- A tag as it is written: the handle of a directive, or nothing, and what comes after it. -/
structure Tag where
  handle : Text
  rest : Text
  deriving DecidableEq, Repr

/-- A directive in front of a document. -/
inductive Directive where
  | version (major minor : Nat)
  | tag (handle start : Text)
  deriving DecidableEq, Repr

namespace Place

/-- The name of an anchor or of a reference to one, after its mark. -/
def anchorName (p : Place) : Option (Text × Place) :=
  let name := p.run isNameChar
  let after := p.skip name.length
  let isDelimited := after.endsWord 0 || after.rest.head?.any "?:,]\x7d%@`".toList.contains
  if name ≠ [] ∧ isDelimited then some (name, after) else none

/-- The handle of a tag: an exclamation mark, and possibly a name and another one. -/
def tagHandle (p : Place) : Text × Place :=
  let p := p.skip 1
  let name := p.run isNameChar
  let after := p.skip name.length
  if after.at? '!' then ('!' :: name ++ ['!'], after.skip 1) else ('!' :: name, after)

/-- The number of bytes of the character that starts with this byte. -/
def sequenceLength? (b : Nat) : Option Nat :=
  if b < 0x80 then some 1
  else if b / 32 = 6 then some 2
  else if b / 16 = 14 then some 3
  else if b / 8 = 30 then some 4
  else none

/-- A byte written as a percent sign and two digits. -/
def escapedByte (p : Place) : Option (Nat × Place) := do
  if p.peek 0 ≠ some '%' then none
  let high ← hexValue? (← p.peek 1)
  let low ← hexValue? (← p.peek 2)
  return (16 * high + low, p.skip 3)

/-- So many bytes that continue a character. -/
def escapedTail : (count : Nat) → (read : List Nat) → Place → Option (List Nat × Place)
  | 0, read, p => some (read, p)
  | count + 1, read, p => do
    let (b, p) ← p.escapedByte
    if b / 64 = 2 then escapedTail count (read ++ [b]) p else none

/-- The characters of a tag after its handle. -/
def tagRest (isVerbatim : Bool) : (steps : Nat) → (read : Text) → Place → Option (Text × Place)
  | 0, read, p => some (read, p)
  | steps + 1, read, p =>
    match p.rest with
    | [] => some (read, p)
    | c :: _ =>
      if c = '%' then
        match (do
          let (b, p) ← p.escapedByte
          let length ← sequenceLength? b
          escapedTail (length - 1) [b] p) with
        | some (bytes, p) =>
          tagRest isVerbatim steps (read ++ Utf8.decodeLossy (bytes.map UInt8.ofNat)) p
        | none => none
      else if isNameChar c || ";/?:@&=+$.!~*'()".toList.contains c
          || (isVerbatim && ",[]".toList.contains c) then
        tagRest isVerbatim steps (read ++ [c]) (p.skip 1)
      else some (read, p)

/-- A tag, at its exclamation mark. -/
def tag (inFlow : Bool) (p : Place) : Option (Tag × Place) := do
  let steps := p.rest.length
  let (tag, p) ← if p.peek 1 = some '<' then do
      let (rest, p) ← tagRest true steps [] (p.skip 2)
      if rest = [] ∨ !p.at? '>' then none
      pure ((⟨[], rest⟩ : Tag), p.skip 1)
    else do
      let (handle, after) := p.tagHandle
      if 1 < handle.length ∧ handle.getLast? = some '!' then
        let (rest, p) ← tagRest false steps [] after
        if rest = [] then none
        pure (⟨handle, rest⟩, p)
      else
        let (rest, p) ← tagRest false steps (handle.drop 1) after
        pure (if rest = [] then ⟨[], ['!']⟩ else ⟨['!'], rest⟩, p)
  if p.endsWord 0 ∨ (inFlow ∧ p.at? ',') then return (tag, p) else none

/-- A number of a version, of at most nine digits. -/
def versionNumber (p : Place) : Option (Nat × Place) :=
  let digits := p.run isDigit
  if digits = [] ∨ 9 < digits.length then none else some (digitsValue digits, p.skip digits.length)

/-- A directive, at its percent sign, with the rest of its line. -/
def directive (p : Place) : Option (Directive × Place) := do
  let p := p.skip 1
  let name := p.run isNameChar
  let p := p.skip name.length
  if name = [] ∨ !p.endsWord 0 then none
  let (d, p) ← if name = "YAML".toList then do
      let (major, p) ← p.skipGaps.versionNumber
      if !p.at? '.' then none
      let (minor, p) ← (p.skip 1).versionNumber
      pure (Directive.version major minor, p)
    else if name = "TAG".toList then do
      let p := p.skipGaps
      if !p.at? '!' then none
      let (handle, p) := p.tagHandle
      if handle ≠ ['!'] ∧ (handle.length < 2 ∨ handle.getLast? ≠ some '!') then none
      if !p.atGap then none
      let p := p.skipGaps
      let (rest, p) ← tagRest true p.rest.length [] p
      if rest = [] ∨ !p.endsWord 0 then none
      pure (Directive.tag handle rest, p)
    else none
  let p := p.skipGaps.skipComment
  if !p.endsLine 0 then none
  return (d, if p.atBreak then p.skipBreak else p)

end Place

end MetricsBridge.Yaml
