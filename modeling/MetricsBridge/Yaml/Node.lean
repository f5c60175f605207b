import MetricsBridge.Text.Table
import MetricsBridge.Yaml.Token

/-!
# Nodes of a YAML document

`Document.ofTokens?` reads the one document that a stream of tokens may hold.  A node may be named
by an anchor and referred to by that name later on.
-/
namespace MetricsBridge.Yaml

/-- A node of a document: a scalar, a sequence, a mapping, or a reference to a node by number.  Its
tag is the full one. -/
inductive Node where
  | scalar (tag : Option Text) (style : Style) (text : Text)
  | sequence (tag : Option Text) (items : List Node)
  | mapping (tag : Option Text) (entries : List (Node × Node))
  | reference (number : Nat)
  deriving Inhabited

/-- The node that stands where there is nothing. -/
def Node.empty : Node :=
  .scalar none .plain []

/-- A node that has an anchor: its number, the place of its start in the order of such starts, and
the node itself. -/
structure Anchored where
  number : Nat
  order : Nat
  node : Node

/-- What is being read: the tokens that are left, the meaning of tag handles, the numbers of the
anchors' names, and the anchored nodes. -/
structure Reader where
  tokens : List Token
  handles : List (Text × Text)
  names : Table Nat
  starts : Nat
  anchored : List Anchored

namespace Reader

/-- The tag that all tags of the standard begin with. -/
def standardTag (name : String) : Text :=
  "tag:yaml.org,2002:".toList ++ name.toList

/-- The full form of a tag. -/
def resolveTag (r : Reader) (t : Tag) : Option Text :=
  if t.handle = [] then some t.rest
  else (r.handles.lookup t.handle).map fun start => start ++ t.rest

/-- Past the next token. -/
def next (r : Reader) : Reader :=
  { r with tokens := r.tokens.tail }

/-- The anchor and the tag in front of a node, in either order. -/
def properties (r : Reader) : Option Text × Option Tag × Reader :=
  match r.tokens with
  | .anchor name :: .tag t :: rest => (some name, some t, { r with tokens := rest })
  | .tag t :: .anchor name :: rest => (some name, some t, { r with tokens := rest })
  | .anchor name :: rest => (some name, none, { r with tokens := rest })
  | .tag t :: rest => (none, some t, { r with tokens := rest })
  | _ => (none, none, r)

/-- Notes the start of a node with an anchor.  Its number is the number of names so far. -/
def noteStart (r : Reader) (anchor : Option Text) : Option (Nat × Nat) × Reader :=
  match anchor with
  | none => (none, r)
  | some name =>
    (some (r.names.length, r.starts),
      { r with names := Table.set name r.names.length r.names, starts := r.starts + 1 })

/-- Notes a node whose start has been noted. -/
def noteNode (r : Reader) (start : Option (Nat × Nat)) (n : Node) : Reader :=
  match start with
  | none => r
  | some (number, order) => { r with anchored := ⟨number, order, n⟩ :: r.anchored }

/-- A token after which an entry is empty. -/
def endsEntry (ends : List Token) (r : Reader) : Bool :=
  match r.tokens with
  | [] => false
  | t :: _ => ends.contains t

mutual

/-- A node; only a `block` may be one of the kinds marked by indentation, and with `indentless` it
may be a sequence that stands no further in than the mapping around it. -/
def node : (steps : Nat) → (block indentless : Bool) → Reader → Option (Node × Reader)
  | 0, _, _, _ => none
  | steps + 1, block, indentless, r =>
    match r.tokens with
    | .alias name :: _ => do return (.reference (← r.names.get? name), r.next)
    | _ => do
      let (anchor, tag, r) := r.properties
      let tag ← match tag with
        | some t => (r.resolveTag t).map some
        | none => some none
      let (start, r) := r.noteStart anchor
      let (n, r) ← match r.tokens with
        | .scalar style text :: _ =>
          some (.scalar (if tag = some ['!'] then none else tag) style text, r.next)
        | .flowSequenceStart :: _ => do
          let (items, r) ← flowItems steps true [] r.next
          return (.sequence tag items, r)
        | .flowMappingStart :: _ => do
          let (entries, r) ← flowEntries steps true [] r.next
          return (.mapping tag entries, r)
        | t :: _ =>
          if indentless ∧ t = .blockEntry then do
            let (items, r) ← indentlessItems steps [] r
            return (.sequence tag items, r)
          else if block ∧ t = .sequenceStart then do
            let (items, r) ← blockItems steps [] r.next
            return (.sequence tag items, r)
          else if block ∧ t = .mappingStart then do
            let (entries, r) ← blockEntries steps [] r.next
            return (.mapping tag entries, r)
          else if anchor.isSome ∨ tag.isSome then some (.scalar tag .plain [], r)
          else none
        | [] => if anchor.isSome ∨ tag.isSome then some (.scalar tag .plain [], r) else none
      return (n, r.noteNode start n)

/-- A node, unless one of the tokens comes next that may follow an entry which is left out. -/
def entry : (steps : Nat) → (ends : List Token) → (block indentless : Bool) → Reader →
    Option (Node × Reader)
  | 0, _, _, _, _ => none
  | steps + 1, ends, block, indentless, r =>
    if endsEntry ends r then some (.empty, r) else node steps block indentless r

/-- The items of a sequence that is marked by indentation. -/
def blockItems : (steps : Nat) → (read : List Node) → Reader → Option (List Node × Reader)
  | 0, _, _ => none
  | steps + 1, read, r =>
    match r.tokens with
    | .blockEntry :: _ => do
      let (item, r) ← entry steps [.blockEntry, .blockEnd] true false r.next
      blockItems steps (item :: read) r
    | .blockEnd :: _ => some (read.reverse, r.next)
    | _ => none

/-- The items of a sequence that stands no further in than the mapping around it. -/
def indentlessItems : (steps : Nat) → (read : List Node) → Reader → Option (List Node × Reader)
  | 0, _, _ => none
  | steps + 1, read, r =>
    match r.tokens with
    | .blockEntry :: _ => do
      let (item, r) ← entry steps [.blockEntry, .key, .value, .blockEnd] true false r.next
      indentlessItems steps (item :: read) r
    | _ => some (read.reverse, r)

/-- The entries of a mapping that is marked by indentation. -/
def blockEntries : (steps : Nat) → (read : List (Node × Node)) → Reader →
    Option (List (Node × Node) × Reader)
  | 0, _, _ => none
  | steps + 1, read, r =>
    match r.tokens with
    | .key :: _ => do
      let (k, r) ← entry steps [.key, .value, .blockEnd] true true r.next
      let (v, r) ← match r.tokens with
        | .value :: _ => entry steps [.key, .value, .blockEnd] true true r.next
        | _ => some (.empty, r)
      blockEntries steps ((k, v) :: read) r
    | .blockEnd :: _ => some (read.reverse, r.next)
    | _ => none

/-- The items of a sequence in brackets. -/
def flowItems : (steps : Nat) → (isFirst : Bool) → (read : List Node) → Reader →
    Option (List Node × Reader)
  | 0, _, _, _ => none
  | steps + 1, isFirst, read, r =>
    match r.tokens with
    | .flowSequenceEnd :: _ => some (read.reverse, r.next)
    | t :: _ => do
      if !isFirst ∧ t ≠ .flowEntry then none
      let r := if isFirst then r else r.next
      match r.tokens with
      | .flowSequenceEnd :: _ => return (read.reverse, r.next)
      | .key :: _ =>
        let r := r.next
        -- A key that is left out takes the token after it along.
        let (k, r) ← if endsEntry [.value, .flowEntry, .flowSequenceEnd] r then
            some (.empty, r.next)
          else node steps false false r
        let (v, r) ← match r.tokens with
          | .value :: _ => entry steps [.flowEntry, .flowSequenceEnd] false false r.next
          | _ => some (.empty, r)
        flowItems steps false (.mapping none [(k, v)] :: read) r
      | _ =>
        let (item, r) ← node steps false false r
        flowItems steps false (item :: read) r
    | [] => none

/-- The entries of a mapping in braces. -/
def flowEntries : (steps : Nat) → (isFirst : Bool) → (read : List (Node × Node)) → Reader →
    Option (List (Node × Node) × Reader)
  | 0, _, _, _ => none
  | steps + 1, isFirst, read, r =>
    match r.tokens with
    | .flowMappingEnd :: _ => some (read.reverse, r.next)
    | t :: _ => do
      if !isFirst ∧ t ≠ .flowEntry then none
      let r := if isFirst then r else r.next
      match r.tokens with
      | .flowMappingEnd :: _ => return (read.reverse, r.next)
      | .key :: _ =>
        let (k, r) ← entry steps [.value, .flowEntry, .flowMappingEnd] false false r.next
        let (v, r) ← match r.tokens with
          | .value :: _ => entry steps [.flowEntry, .flowMappingEnd] false false r.next
          | _ => some (.empty, r)
        flowEntries steps false ((k, v) :: read) r
      | _ =>
        let (k, r) ← node steps false false r
        flowEntries steps false ((k, .empty) :: read) r
    | [] => none

end

/-- The handles that need no directive. -/
def standardHandles : List (Text × Text) :=
  [(['!'], ['!']), (['!', '!'], standardTag "")]

/-- The handles of the directives, of which the version may be given once, and every handle once. -/
def handlesOf (directives : List Directive) : Option (List (Text × Text)) := do
  let versions := directives.filterMap fun
    | .version major minor => some (major, minor)
    | .tag _ _ => none
  let handles := directives.filterMap fun
    | .version _ _ => none
    | .tag handle start => some (handle, start)
  if 1 < versions.length then none
  if versions.any fun (major, minor) => major ≠ 1 || (minor ≠ 1 && minor ≠ 2) then none
  if ¬ (handles.map Prod.fst).Nodup then none
  return handles ++ standardHandles

/-- The directives that come next. -/
def directives : List Token → List Directive × List Token
  | .directive d :: rest =>
    let (more, rest) := directives rest
    (d :: more, rest)
  | rest => ([], rest)

end Reader

/-- A document: its root and the nodes that have anchors. -/
structure Document where
  root : Node
  anchored : List Anchored

namespace Document

/-- The document of a stream of tokens, if it has one; there may be no second one. -/
def ofTokens? (tokens : List Token) : Option (Option Document) := do
  let steps := 4 * tokens.length + 4
  match tokens with
  | [] => return none
  | first :: _ =>
    let (given, rest) := Reader.directives tokens
    let handles ← Reader.handlesOf given
    let (root, r) ← match first, rest with
      | .directive _, .documentStart :: rest | .documentStart, _ :: rest =>
        if rest = [] then some (.empty, ⟨rest, handles, [], 0, []⟩)
        else Reader.entry steps [.documentStart, .documentEnd] true false ⟨rest, handles, [], 0, []⟩
      | .directive _, _ => none
      | _, _ => Reader.node steps true false ⟨tokens, handles, [], 0, []⟩
    if r.tokens.all (· == .documentEnd) then return some ⟨root, r.anchored⟩ else none

/-- The document of a text. -/
def parse? (t : Text) : Option (Option Document) := do
  ofTokens? (← Token.scan t).toList

/-- The node that a reference stands for: of the nodes with its number the one that starts last. -/
def follow (d : Document) (n : Node) : Node :=
  match n with
  | .reference number =>
    let found := d.anchored.filter (·.number == number)
    match found.foldl (fun best a => match best with
      | some (b : Anchored) => if b.order < a.order then some a else some b
      | none => some a) none with
    | some a => a.node
    | none => .empty
  | n => n

end Document

end MetricsBridge.Yaml
