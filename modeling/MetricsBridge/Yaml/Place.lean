import MetricsBridge.Text.Basic

/-!
# A place in a YAML text

What is still to be read, and the line and column reached.  A line ends at a line feed, a carriage
return, both in this order, or one of the three line ends beyond ASCII.
-/
namespace MetricsBridge.Yaml

/-- A place in a text: what follows it, its line and column, and the characters before it. -/
structure Place where
  rest : Text
  line : Nat
  column : Nat
  index : Nat

/-- A character that ends a line. -/
def isBreak (c : Char) : Bool :=
  c == '\n' || c == '\r' || c == '\u0085' || c == '\u2028' || c == '\u2029'

/-- A space or a tabulator. -/
def isGap (c : Char) : Bool :=
  c == ' ' || c == '\t'

/-- A character of a name. -/
def isNameChar (c : Char) : Bool :=
  c.isAlphanum || c == '_' || c == '-'

/-- The characters that a text may hold. -/
def isAllowed (c : Char) : Bool :=
  let n := c.toNat
  n == 0x09 || n == 0x0A || n == 0x0D || (0x20 ≤ n && n ≤ 0x7E) || n == 0x85
    || (0xA0 ≤ n && n ≤ 0xD7FF) || (0xE000 ≤ n && n ≤ 0xFFFD) || 0x10000 ≤ n

namespace Place

/-- The first place of a text. -/
def start (t : Text) : Place :=
  ⟨t, 0, 0, 0⟩

/-- The character so many places ahead. -/
def peek (p : Place) (n : Nat) : Option Char :=
  p.rest[n]?

/-- The next character is this one. -/
def at? (p : Place) (c : Char) : Bool :=
  p.rest.head? == some c

/-- The end of the text. -/
def atEnd (p : Place) : Bool :=
  p.rest.isEmpty

/-- A space or a tabulator comes next. -/
def atGap (p : Place) : Bool :=
  p.rest.head?.any isGap

/-- The end of a line comes next. -/
def atBreak (p : Place) : Bool :=
  p.rest.head?.any isBreak

/-- The end of a line or of the text is so many places ahead. -/
def endsLine (p : Place) (n : Nat) : Bool :=
  match p.peek n with
  | none => true
  | some c => isBreak c

/-- A gap, or the end of a line or of the text, is so many places ahead. -/
def endsWord (p : Place) (n : Nat) : Bool :=
  match p.peek n with
  | none => true
  | some c => isGap c || isBreak c

/-- Past so many characters of the same line. -/
def skip (p : Place) (n : Nat) : Place :=
  ⟨p.rest.drop n, p.line, p.column + n, p.index + n⟩

/-- Past the end of a line. -/
def skipBreak (p : Place) : Place :=
  match p.rest with
  | '\r' :: '\n' :: rest => ⟨rest, p.line + 1, 0, p.index + 2⟩
  | _ :: rest => ⟨rest, p.line + 1, 0, p.index + 1⟩
  | [] => p

/-- What the end of a line stands for in a scalar. -/
def breakText (p : Place) : Text :=
  match p.rest with
  | c :: _ => if c = '\u2028' ∨ c = '\u2029' then [c] else ['\n']
  | [] => []

/-- The characters of a class that come next. -/
def run (p : Place) (accepts : Char → Bool) : Text :=
  p.rest.takeWhile accepts

/-- Past the characters of a class that come next, none of which ends a line. -/
def skipRun (p : Place) (accepts : Char → Bool) : Place :=
  p.skip (p.run accepts).length

/-- Past the spaces and tabulators that come next. -/
def skipGaps (p : Place) : Place :=
  p.skipRun isGap

/-- Past a comment, up to the end of the line. -/
def skipComment (p : Place) : Place :=
  if p.at? '#' then p.skipRun fun c => !isBreak c else p

/-- The same three characters at the start of a line, alone or before a gap. -/
def atMark (p : Place) (c : Char) : Bool :=
  p.column == 0 && p.peek 0 == some c && p.peek 1 == some c && p.peek 2 == some c && p.endsWord 3

/-- The mark of the start or of the end of a document. -/
def atDocumentMark (p : Place) : Bool :=
  p.atMark '-' || p.atMark '.'

end Place

end MetricsBridge.Yaml
