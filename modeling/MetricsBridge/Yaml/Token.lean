import MetricsBridge.Yaml.Property
import MetricsBridge.Yaml.Scalar

/-!
# Tokens of a YAML text

`Token.scan` turns a text into tokens.  Blocks are marked by their indentation: a token that
starts a block stands where the indentation grows, and one that ends it where it shrinks again.  A
scalar may turn out to be a key only when its colon is read; the tokens for that are put in front
of it then.
-/
namespace MetricsBridge.Yaml

/-- A token of a YAML text. -/
inductive Token where
  | directive (d : Directive)
  | documentStart
  | documentEnd
  | sequenceStart
  | mappingStart
  | blockEnd
  | flowSequenceStart
  | flowSequenceEnd
  | flowMappingStart
  | flowMappingEnd
  | flowEntry
  | blockEntry
  | key
  | value
  | alias (name : Text)
  | anchor (name : Text)
  | tag (t : Tag)
  | scalar (style : Style) (text : Text)
  deriving DecidableEq, Repr

/-- Where a key may have started: before which token, and where in the text.  In a block that is
indented just so far it has to be one. -/
structure KeyStart where
  token : Nat
  line : Nat
  column : Nat
  index : Nat
  isRequired : Bool

/-- What has been scanned: the tokens, the indentations of the blocks that are open, for each open
bracket and for the text outside where a key may have started, and whether a key may start here. -/
structure Scan where
  place : Place
  tokens : Array Token
  indent : Int
  outer : List Int
  keys : List (Option KeyStart)
  keyAllowed : Bool

namespace Scan

/-- The start of a scan. -/
def start (t : Text) : Scan :=
  ⟨.start t, #[], -1, [], [none], true⟩

/-- So many brackets are open. -/
def inFlow (s : Scan) : Bool :=
  1 < s.keys.length

/-- Adds a token and goes on to a place. -/
def push (s : Scan) (t : Token) (p : Place) : Scan :=
  { s with tokens := s.tokens.push t, place := p }

/-- Forgets where a key may have started; it must not have been one for sure. -/
def dropKey (s : Scan) : Option Scan :=
  match s.keys with
  | some k :: rest => if k.isRequired then none else some { s with keys := none :: rest }
  | _ => some s

/-- Notes that a key may start here. -/
def noteKey (s : Scan) : Option Scan :=
  if s.keyAllowed then do
    let s ← s.dropKey
    let k : KeyStart := {
      token := s.tokens.size
      line := s.place.line
      column := s.place.column
      index := s.place.index
      isRequired := !s.inFlow && s.indent == s.place.column }
    return { s with keys := some k :: s.keys.tail }
  else some s

/-- Opens a block at a column, if that is further in, with its token in front of another. -/
def openBlock (s : Scan) (column : Nat) (at? : Nat) (t : Token) : Scan :=
  if s.inFlow ∨ (column : Int) ≤ s.indent then s
  else
    { s with
      tokens := s.tokens.insertIdxIfInBounds at? t
      indent := column
      outer := s.indent :: s.outer }

/-- Closes the blocks that are indented further than a column. -/
def closeBlocks (s : Scan) (column : Int) : Scan :=
  if s.inFlow then s else go s.outer s
where
  /-- Closes blocks inside those of the given indentations. -/
  go : List Int → Scan → Scan
    | [], s => s
    | outer :: rest, s =>
      if column < s.indent then
        go rest { s with tokens := s.tokens.push .blockEnd, indent := outer, outer := rest }
      else s

/-- Ends all blocks before a token that stands outside of them. -/
def leaveBlocks (s : Scan) : Option Scan := do
  let s ← (s.closeBlocks (-1)).dropKey
  return { s with keyAllowed := false }

/-- Past spaces, comments and line ends, up to the next token. -/
def toNextToken : (steps : Nat) → Scan → Scan
  | 0, s => s
  | steps + 1, s =>
    let p := if s.place.column = 0 ∧ s.place.at? '\uFEFF' then s.place.skip 1 else s.place
    let p := p.skipRun fun c => c == ' ' || ((s.inFlow || !s.keyAllowed) && c == '\t')
    let p := p.skipComment
    if p.atBreak then
      toNextToken steps { s with place := p.skipBreak, keyAllowed := s.keyAllowed || !s.inFlow }
    else { s with place := p }

/-- A bracket that opens. -/
def openBracket (s : Scan) (t : Token) : Option Scan := do
  let s ← s.noteKey
  return { s.push t (s.place.skip 1) with keys := none :: s.keys, keyAllowed := true }

/-- A bracket that closes. -/
def closeBracket (s : Scan) (t : Token) : Option Scan := do
  let s ← s.dropKey
  let keys := if s.inFlow then s.keys.tail else s.keys
  return { s.push t (s.place.skip 1) with keys := keys, keyAllowed := false }

/-- The mark of an entry or of a key, which may open a block. -/
def mark (s : Scan) (t block : Token) (keyAllowed : Bool) : Option Scan := do
  if !s.inFlow ∧ !s.keyAllowed then none
  let pushed := { s with tokens := s.tokens.push t }
  let s ← (pushed.openBlock s.place.column s.tokens.size block).dropKey
  return { s with place := s.place.skip 1, keyAllowed := keyAllowed }

/-- The mark of a value: what may have been a key is one if it stands on this line and not too far
back. -/
def valueMark (s : Scan) : Option Scan :=
  match s.keys with
  | some k :: rest =>
    if k.line < s.place.line ∨ k.index + 1024 < s.place.index then
      if k.isRequired then none
      else { s with keys := none :: rest }.mark .value .mappingStart !s.inFlow
    else
      let s := { s with
        tokens := s.tokens.insertIdxIfInBounds k.token .key
        keys := none :: rest
        keyAllowed := false }
      let s := s.openBlock k.column k.token .mappingStart
      some (s.push .value (s.place.skip 1))
  | _ => s.mark .value .mappingStart !s.inFlow

/-- A token that may be the start of a key, read by `f`. -/
def node (s : Scan) (f : Place → Option (Token × Place)) : Option Scan := do
  let s ← s.noteKey
  let (t, p) ← f s.place
  return { s.push t p with keyAllowed := false }

/-- A plain scalar; after the end of a line a key may start. -/
def plain (s : Scan) : Option Scan := do
  let s ← s.noteKey
  let (text, isBroken, p) ← s.place.plainScalar s.inFlow s.indent
  return { s.push (.scalar .plain text) p with keyAllowed := isBroken }

/-- A block scalar. -/
def block (s : Scan) (isLiteral : Bool) : Option Scan := do
  let s ← s.dropKey
  let (text, p) ← s.place.blockScalar isLiteral s.indent
  let style : Style := if isLiteral then .literal else .folded
  return { s.push (.scalar style text) p with keyAllowed := true }

/-- A character that starts no plain scalar. -/
def isIndicator (c : Char) : Bool :=
  "-?:,[]\x7b\x7d#&*!|>'\"%@`".toList.contains c

/-- The next token, which starts with `c`. -/
def token (s : Scan) (c : Char) : Option Scan :=
  let p := s.place
  if p.column = 0 ∧ c = '%' then do
    let s ← s.leaveBlocks
    let (d, p) ← p.directive
    return s.push (.directive d) p
  else if p.atMark '-' then do
    return (← s.leaveBlocks).push .documentStart (p.skip 3)
  else if p.atMark '.' then do
    return (← s.leaveBlocks).push .documentEnd (p.skip 3)
  else if c = '[' then s.openBracket .flowSequenceStart
  else if c = '\x7b' then s.openBracket .flowMappingStart
  else if c = ']' then s.closeBracket .flowSequenceEnd
  else if c = '\x7d' then s.closeBracket .flowMappingEnd
  else if c = ',' then do
    let s ← s.dropKey
    return { s.push .flowEntry (p.skip 1) with keyAllowed := true }
  else if c = '-' ∧ p.endsWord 1 then s.mark .blockEntry .sequenceStart true
  else if c = '?' ∧ (s.inFlow ∨ p.endsWord 1) then s.mark .key .mappingStart !s.inFlow
  else if c = ':' ∧ (s.inFlow ∨ p.endsWord 1) then s.valueMark
  else if c = '*' then s.node fun p => (p.skip 1).anchorName.map fun (n, p) => (.alias n, p)
  else if c = '&' then s.node fun p => (p.skip 1).anchorName.map fun (n, p) => (.anchor n, p)
  else if c = '!' then s.node fun p => (p.tag s.inFlow).map fun (t, p) => (.tag t, p)
  else if c = '|' ∧ !s.inFlow then s.block true
  else if c = '>' ∧ !s.inFlow then s.block false
  else if c = '\'' ∨ c = '"' then
    s.node fun p => (p.quotedScalar c).map fun (t, p) => (.scalar .quoted t, p)
  else if (!isIndicator c && !isGap c) || (c == '-' && !(p.peek 1).any isGap)
      || (!s.inFlow && (c == '?' || c == ':') && !p.endsWord 1) then s.plain
  else none

/-- The tokens up to the end of the text. -/
def tokensFrom : (steps : Nat) → Scan → Option (Array Token)
  | 0, _ => none
  | steps + 1, s =>
    let s := toNextToken (s.place.rest.length + 1) s
    let s := s.closeBlocks s.place.column
    match s.place.rest with
    | [] => (s.leaveBlocks).map Scan.tokens
    | c :: _ =>
      match s.token c with
      | some s => tokensFrom steps s
      | none => none

end Scan

/-- The tokens of a text, unless it is ill formed. -/
def Token.scan (t : Text) : Option (Array Token) :=
  let t := match t with
    | '\uFEFF' :: rest => rest
    | _ => t
  if t.all isAllowed then (Scan.start t).tokensFrom (t.length + 1) else none

end MetricsBridge.Yaml
