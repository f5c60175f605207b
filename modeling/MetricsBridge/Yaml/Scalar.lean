import MetricsBridge.Text.Decimal
import MetricsBridge.Text.Hex
import MetricsBridge.Yaml.Place

/-!
# Scalars of a YAML text

Plain scalars, scalars in quotes and block scalars.  In all but block scalars the end of a line is
folded: one becomes a space, and of several the first is dropped.  The reading functions take a
bound on their number of steps, for which the length of the text is enough.
-/
namespace MetricsBridge.Yaml

/-- How a scalar is written. -/
inductive Style where
  | plain
  | quoted
  | literal
  | folded
  deriving DecidableEq, Repr

/-- The gap between two words of a scalar: blanks inside a line, or line ends of which the first is
kept apart. -/
inductive Gap where
  | blanks (read : Text)
  | breaks (first more : Text)

namespace Gap

/-- What a gap stands for. -/
def text : Gap → Text
  | .blanks read => read
  | .breaks first more =>
    if first = ['\n'] then (if more = [] then [' '] else more) else first ++ more

/-- Some line has ended. -/
def isBroken : Gap → Bool
  | .blanks _ => false
  | .breaks _ _ => true

end Gap

namespace Place

/-- The gap that comes next and the place after it.  If `tabColumn` is given, no tabulator may stand
before that column of a new line. -/
def readGap (tabColumn : Option Int) : (steps : Nat) → Gap → Place → Option (Gap × Place)
  | 0, gap, p => some (gap, p)
  | steps + 1, gap, p =>
    match p.rest with
    | [] => some (gap, p)
    | c :: _ =>
      if isGap c then
        match gap with
        | .blanks read => readGap tabColumn steps (.blanks (read ++ [c])) (p.skip 1)
        | .breaks _ _ =>
          if c = '\t' ∧ tabColumn.any (fun column => (p.column : Int) < column) then none
          else readGap tabColumn steps gap (p.skip 1)
      else if isBreak c then
        let gap := match gap with
          | .blanks _ => .breaks p.breakText []
          | .breaks first more => .breaks first (more ++ p.breakText)
        readGap tabColumn steps gap p.skipBreak
      else some (gap, p)

/-! ### Plain scalars -/

/-- A character that ends a plain scalar inside brackets. -/
def isFlowMark (c : Char) : Bool :=
  c == ',' || c == '[' || c == ']' || c == '\x7b' || c == '\x7d'

/-- The characters of a word of a plain scalar, in reverse. -/
def plainWord (inFlow : Bool) : (steps : Nat) → (read : Text) → Place → Option (Text × Place)
  | 0, read, p => some (read, p)
  | steps + 1, read, p =>
    match p.rest with
    | [] => some (read, p)
    | c :: _ =>
      if isGap c || isBreak c then some (read, p)
      else if inFlow && c == ':' && (p.peek 1).any (fun d => isFlowMark d || d == '?') then none
      else if (c == ':' && p.endsWord 1) || (inFlow && isFlowMark c) then some (read, p)
      else plainWord inFlow steps (c :: read) (p.skip 1)

/-- The rest of a plain scalar in reverse, and whether a line has ended after its last word.  Its
further lines stand at `column` or beyond. -/
def plainWords (inFlow : Bool) (column : Int) :
    (steps : Nat) → (read : Text) → (gap : Gap) → Place → Option (Text × Bool × Place)
  | 0, _, _, _ => none
  | steps + 1, read, gap, p =>
    if p.atDocumentMark ∨ p.at? '#' then some (read, gap.isBroken, p)
    else do
      let (word, after) ← plainWord inFlow (steps + 1) [] p
      let (read, gap) :=
        if word = [] then (read, gap) else (word ++ gap.text.reverse ++ read, .blanks [])
      if !(after.atGap || after.atBreak) then return (read, gap.isBroken, after)
      let (gap, next) ← readGap (some column) (steps + 1) gap after
      if !inFlow ∧ (next.column : Int) < column then return (read, gap.isBroken, next)
      plainWords inFlow column steps read gap next

/-- A plain scalar, and whether a line has ended after it. -/
def plainScalar (inFlow : Bool) (indent : Int) (p : Place) : Option (Text × Bool × Place) := do
  let (read, isBroken, p) ← plainWords inFlow (indent + 1) (p.rest.length + 1) [] (.blanks []) p
  return (read.reverse, isBroken, p)

/-! ### Scalars in quotes -/

/-- The character that a letter after a backslash stands for. -/
def escapedChar? (c : Char) : Option Char :=
  match c with
  | '0' => some '\x00'
  | 'a' => some '\x07'
  | 'b' => some '\x08'
  | 't' => some '\t'
  | '\t' => some '\t'
  | 'n' => some '\n'
  | 'v' => some '\x0b'
  | 'f' => some '\x0c'
  | 'r' => some '\r'
  | 'e' => some '\x1b'
  | ' ' => some ' '
  | '"' => some '"'
  | '/' => some '/'
  | '\\' => some '\\'
  | 'N' => some '\u0085'
  | '_' => some '\u00a0'
  | 'L' => some '\u2028'
  | 'P' => some '\u2029'
  | _ => none

/-- The number of hexadecimal digits after a letter that announces them. -/
def escapeDigits? (c : Char) : Option Nat :=
  match c with
  | 'x' => some 2
  | 'u' => some 4
  | 'U' => some 8
  | _ => none

/-- The character of an escape and the place after it. -/
def escape (p : Place) : Option (Char × Place) := do
  let c ← p.peek 1
  match escapeDigits? c with
  | some count =>
    let digits := (p.rest.drop 2).take count
    if digits.length < count then none
    let n ← hexNumber? digits
    if (0xD800 ≤ n ∧ n ≤ 0xDFFF) ∨ 0x10FFFF < n then none
    return (Char.ofNat n, p.skip (2 + count))
  | none => return (← escapedChar? c, p.skip 2)

/-- The characters of a word between quotes, in reverse, and whether it ends with an escaped end of
a line. -/
def quotedWord (mark : Char) : (steps : Nat) → (read : Text) → Place → Option (Text × Bool × Place)
  | 0, _, _ => none
  | steps + 1, read, p =>
    match p.rest with
    | [] => some (read, false, p)
    | c :: _ =>
      if isGap c || isBreak c then some (read, false, p)
      else if mark = '\'' ∧ c = '\'' ∧ p.peek 1 = some '\'' then
        quotedWord mark steps ('\'' :: read) (p.skip 2)
      else if c = mark then some (read, false, p)
      else if mark = '"' ∧ c = '\\' then
        if (p.peek 1).any isBreak then some (read, true, (p.skip 1).skipBreak)
        else match p.escape with
          | some (e, p) => quotedWord mark steps (e :: read) p
          | none => none
      else quotedWord mark steps (c :: read) (p.skip 1)

/-- The rest of a scalar in quotes, in reverse, and the place after its closing quote. -/
def quotedWords (mark : Char) : (steps : Nat) → (read : Text) → Place → Option (Text × Place)
  | 0, _, _ => none
  | steps + 1, read, p =>
    if p.atDocumentMark ∨ p.atEnd then none
    else do
      let (read, isEscaped, p) ← quotedWord mark (steps + 1) read p
      if p.at? mark then return (read, p.skip 1)
      let start : Gap := if isEscaped then .breaks [] [] else .blanks []
      let (gap, p) ← readGap none (steps + 1) start p
      quotedWords mark steps (gap.text.reverse ++ read) p

/-- A scalar in quotes of the given kind, at its opening quote. -/
def quotedScalar (mark : Char) (p : Place) : Option (Text × Place) := do
  let (read, p) ← quotedWords mark (p.rest.length + 1) [] (p.skip 1)
  return (read.reverse, p)

/-! ### Block scalars -/

/-- What becomes of the line ends at the end of a block scalar. -/
inductive Chomping where
  | strip
  | clip
  | keep
  deriving DecidableEq

/-- The empty lines that come next, as the text they stand for, the greatest column reached, and the
place after them.  If the column of the scalar is known, the spaces before it are skipped, and else
all spaces. -/
def emptyLines (column : Option Nat) :
    (steps : Nat) → (breaks : Text) → (widest : Nat) → Place → Option (Text × Nat × Place)
  | 0, _, _, _ => none
  | steps + 1, breaks, widest, p =>
    let spaces := (p.run (· == ' ')).length
    let p := match column with
      | some n => p.skip (min spaces (n - p.column))
      | none => p.skip spaces
    let widest := max widest p.column
    if p.at? '\t' ∧ column.all (fun n => p.column < n) then none
    else if p.atBreak then emptyLines column steps (breaks ++ p.breakText) widest p.skipBreak
    else some (breaks, widest, p)

/-- The lines of a block scalar at a column, after what is `read` in reverse, the end of the last
line and the empty lines that follow it. -/
def blockLines (isLiteral : Bool) (column : Nat) : (steps : Nat) → (read : Text) →
    (lineEnd breaks : Text) → (afterBlank : Bool) → Place → Option (Text × Text × Text × Place)
  | 0, _, _, _, _, _ => none
  | steps + 1, read, lineEnd, breaks, afterBlank, p =>
    if p.column ≠ column ∨ p.atEnd then some (read, lineEnd, breaks, p)
    else do
      let isFolded := !isLiteral && lineEnd == ['\n'] && !afterBlank && !p.atGap
      let joint := if isFolded then (if breaks = [] then [' '] else []) else lineEnd
      let line := p.run fun c => !isBreak c
      let read := line.reverse ++ breaks.reverse ++ joint.reverse ++ read
      let after := p.skip line.length
      let (breaks, _, next) ← emptyLines (some column) (steps + 1) [] 0
        (if after.atBreak then after.skipBreak else after)
      blockLines isLiteral column steps read (if after.atBreak then after.breakText else [])
        breaks p.atGap next

/-- The indicators after the mark of a block scalar: its chomping and how far it is indented. -/
def blockHeader (p : Place) : Option (Chomping × Option Nat × Place) :=
  let chomping (p : Place) : Option (Chomping × Place) :=
    if p.at? '+' then some (.keep, p.skip 1)
    else if p.at? '-' then some (.strip, p.skip 1)
    else none
  let increment (p : Place) : Option (Option Nat × Place) :=
    match p.rest with
    | c :: _ =>
      if c = '0' then none
      else if isDigit c then some (some (digitValue c), p.skip 1)
      else some (none, p)
    | [] => some (none, p)
  match chomping p with
  | some (c, p) => do
    let (n, p) ← increment p
    return (c, n, p)
  | none => do
    let (n, p) ← increment p
    match n, chomping p with
    | some _, some (c, p) => return (c, n, p)
    | _, _ => return (.clip, n, p)

/-- A block scalar, at its mark, inside a block of the given indentation. -/
def blockScalar (isLiteral : Bool) (indent : Int) (p : Place) : Option (Text × Place) := do
  let steps := p.rest.length + 1
  let (chomping, increment, p) ← blockHeader (p.skip 1)
  let p := p.skipGaps.skipComment
  if !p.endsLine 0 then none
  let p := if p.atBreak then p.skipBreak else p
  let column := increment.map fun n => if 0 ≤ indent then indent.toNat + n else n
  let (breaks, widest, p) ← emptyLines column steps [] 0 p
  let column := column.getD (max (max widest (indent + 1).toNat) 1)
  let (read, lineEnd, breaks, p) ← blockLines isLiteral column steps [] [] breaks false p
  let tail := match chomping with
    | .strip => []
    | .clip => lineEnd
    | .keep => lineEnd ++ breaks
  return (read.reverse ++ tail, p)

end Place

end MetricsBridge.Yaml
