/-
# From tokens to events

The grammar of one document. A node in a block may be any node; in a flow
collection it is a scalar, a reference or another flow collection. Where the
grammar wants a node and finds none, it puts an empty plain scalar.

A reader that fails still gives the events before the fault, since what they
say may matter more than the fault.

Key definitions: `Yaml.Reader`, `Yaml.Reader.node`, `Yaml.Document.ofTokens`.
-/
import SitePlan.Yaml.Event.Basic

namespace SitePlan
namespace Yaml

/-- The tokens still to read and what has been read: the events latest first,
the number of each anchor name, and the place of each numbered anchor. -/
structure Reader where
  tokens : List Token
  events : List Event
  anchors : List (List Char × Nat)
  targets : List (Nat × Nat)
  handles : List (List Char × TagText)
  deriving DecidableEq, Repr

namespace Reader

/-- A step of reading: on failure, the reader as it was at the fault. -/
abbrev Result (α : Type) := Except Reader α

/-- The next token; the text is not well formed if there is none. -/
def peek (r : Reader) : Result Token :=
  match r.tokens with
  | t :: _ => .ok t
  | [] => .error r

/-- Past the next token. -/
def skip (r : Reader) : Reader := { r with tokens := r.tokens.tail }

/-- Adds an event. -/
def emit (e : Event) (r : Reader) : Reader := { r with events := e :: r.events }

/-- An empty plain scalar. -/
def emitEmpty (r : Reader) : Reader := r.emit (.scalar none [] .plain)

/-- What stands before a node: an anchor, and a tag as written in full. -/
structure Properties where
  anchor : Option (List Char)
  tag : Option TagText

/-- The tag with its handle expanded; an unknown handle is an error. -/
def expandTag (r : Reader) (handle : List Char) (suffix : TagText) : Result TagText :=
  if handle.isEmpty then .ok suffix
  else match r.handles.lookup handle with
    | some expansion => .ok (expansion ++ suffix)
    | none => .error r

/-- An anchor and a tag, at most one of each and in either order. -/
def properties (r : Reader) : Result (Properties × Reader) := do
  match r.tokens with
  | .anchor name :: .tag handle suffix :: rest =>
    let r := { r with tokens := rest }
    .ok (⟨some name, some (← r.expandTag handle suffix)⟩, r)
  | .anchor name :: rest => .ok (⟨some name, none⟩, { r with tokens := rest })
  | .tag handle suffix :: .anchor name :: rest =>
    let r := { r with tokens := rest }
    .ok (⟨some name, some (← r.expandTag handle suffix)⟩, r)
  | .tag handle suffix :: rest =>
    let r := { r with tokens := rest }
    .ok (⟨none, some (← r.expandTag handle suffix)⟩, r)
  | _ => .ok (⟨none, none⟩, r)

/-- Numbers an anchor that stands at the next event: the number is that of the
names before it, and a name used again keeps no hold on its old number. -/
def bind (anchor : Option (List Char)) (r : Reader) : Reader :=
  match anchor with
  | none => r
  | some name =>
    let number := r.anchors.length
    { r with
      anchors := (name, number) :: r.anchors.filter (·.1 != name)
      targets := (number, r.events.length) :: r.targets }

/-- Adds the event of a node with properties. -/
def emitNode (p : Properties) (event : Option Tag → Event) (r : Reader) : Reader :=
  (r.bind p.anchor).emit (event (p.tag.map Tag.ofText))

/-- Where a node stands: in a flow collection, in a block, or where a sequence
may stand without indentation of its own. -/
inductive Place
  | flow
  | block
  | loose
  deriving DecidableEq, Repr

mutual

/-- A node. -/
def node : Nat → Place → Reader → Result Reader
  | 0, _, r => .error r
  | fuel + 1, place, r => do
    match ← r.peek with
    | .reference name =>
      match r.anchors.lookup name with
      | some number => .ok (r.emit (.reference number)).skip
      | none => .error r
    | _ =>
      let (p, r) ← r.properties
      match ← r.peek, place with
      | .blockEntry, .loose =>
        looseEntries fuel (r.emitNode p .sequenceStart)
      | .scalar text style, _ => .ok (r.emitNode p fun tag => .scalar tag text style).skip
      | .flowSequenceStart, _ =>
        flowItems fuel true (r.emitNode p .sequenceStart).skip
      | .flowMappingStart, _ =>
        flowPairs fuel true (r.emitNode p .mappingStart).skip
      | .blockSequenceStart, .block | .blockSequenceStart, .loose =>
        blockEntries fuel (r.emitNode p .sequenceStart).skip
      | .blockMappingStart, .block | .blockMappingStart, .loose =>
        blockPairs fuel (r.emitNode p .mappingStart).skip
      | _, _ =>
        if p.anchor.isSome || p.tag.isSome then
          .ok (r.emitNode p fun tag => .scalar tag [] .plain)
        else .error r

/-- A node, or an empty scalar if one of the given tokens comes next. -/
def nodeUnless : Nat → (Token → Bool) → Place → Reader → Result Reader
  | 0, _, _, r => .error r
  | fuel + 1, stops, place, r => do
    if stops (← r.peek) then .ok r.emitEmpty else node fuel place r

/-- The entries of an indented sequence, with its end. -/
def blockEntries : Nat → Reader → Result Reader
  | 0, r => .error r
  | fuel + 1, r => do
    match ← r.peek with
    | .blockEntry =>
      let r ← nodeUnless fuel (fun t => t == .blockEntry || t == .blockEnd) .block r.skip
      blockEntries fuel r
    | .blockEnd => .ok (r.emit .sequenceEnd).skip
    | _ => .error r

/-- The entries of a sequence that shares the indentation of the mapping around
it. -/
def looseEntries : Nat → Reader → Result Reader
  | 0, r => .error r
  | fuel + 1, r => do
    match ← r.peek with
    | .blockEntry =>
      let r ← nodeUnless fuel
        (fun t => t == .blockEntry || t == .key || t == .value || t == .blockEnd) .block r.skip
      looseEntries fuel r
    | _ => .ok (r.emit .sequenceEnd)

/-- The pairs of an indented mapping, with its end. -/
def blockPairs : Nat → Reader → Result Reader
  | 0, r => .error r
  | fuel + 1, r => do
    match ← r.peek with
    | .key =>
      let r ← nodeUnless fuel (fun t => t == .key || t == .value || t == .blockEnd) .loose r.skip
      blockValue fuel r
    | .blockEnd => .ok (r.emit .mappingEnd).skip
    | _ => .error r

/-- The value of a pair in an indented mapping, and the pairs after it. -/
def blockValue : Nat → Reader → Result Reader
  | 0, r => .error r
  | fuel + 1, r => do
    match ← r.peek with
    | .value =>
      let r ← nodeUnless fuel (fun t => t == .key || t == .value || t == .blockEnd) .loose r.skip
      blockPairs fuel r
    | _ => blockPairs fuel r.emitEmpty

/-- The items of a sequence in brackets, with its end. -/
def flowItems : Nat → Bool → Reader → Result Reader
  | 0, _, r => .error r
  | fuel + 1, first, r => do
    let t ← r.peek
    if t == .flowSequenceEnd then .ok (r.emit .sequenceEnd).skip
    else if !first && t != .flowEntry then .error r
    else
      let r := if first then r else r.skip
      match ← r.peek with
      | .key => flowItemKey fuel (r.emit (.mappingStart none)).skip
      | .flowSequenceEnd => .ok (r.emit .sequenceEnd).skip
      | _ => flowItems fuel false (← node fuel .flow r)

/-- The key of a mapping that is a single pair among the items. When it is
missing, the token in its place is passed over. -/
def flowItemKey : Nat → Reader → Result Reader
  | 0, r => .error r
  | fuel + 1, r => do
    match ← r.peek with
    | .value | .flowEntry | .flowSequenceEnd => flowItemValue fuel r.skip.emitEmpty
    | _ => flowItemValue fuel (← node fuel .flow r)

/-- The value of a single pair among the items, and the items after it. -/
def flowItemValue : Nat → Reader → Result Reader
  | 0, r => .error r
  | fuel + 1, r => do
    let r ← match ← r.peek with
      | .value =>
        nodeUnless fuel (fun t => t == .flowEntry || t == .flowSequenceEnd) .flow r.skip
      | _ => .ok r.emitEmpty
    let _ ← r.peek
    flowItems fuel false (r.emit .mappingEnd)

/-- The pairs of a mapping in braces, with its end. -/
def flowPairs : Nat → Bool → Reader → Result Reader
  | 0, _, r => .error r
  | fuel + 1, first, r => do
    let t ← r.peek
    if t == .flowMappingEnd then .ok (r.emit .mappingEnd).skip
    else if !first && t != .flowEntry then .error r
    else
      let r := if first then r else r.skip
      match ← r.peek with
      | .key =>
        let r ← nodeUnless fuel
          (fun t => t == .value || t == .flowEntry || t == .flowMappingEnd) .flow r.skip
        flowValue fuel r
      | .flowMappingEnd => .ok (r.emit .mappingEnd).skip
      | _ =>
        let r ← node fuel .flow r
        let _ ← r.peek
        flowPairs fuel false r.emitEmpty

/-- The value of a pair in braces, and the pairs after it. -/
def flowValue : Nat → Reader → Result Reader
  | 0, r => .error r
  | fuel + 1, r => do
    let r ← match ← r.peek with
      | .value =>
        nodeUnless fuel (fun t => t == .flowEntry || t == .flowMappingEnd) .flow r.skip
      | _ => .ok r.emitEmpty
    flowPairs fuel false r

end

/-- The handles that need no directive. -/
def defaultHandles : List (List Char × TagText) :=
  [("!".toList, [some '!']), ("!!".toList, "tag:yaml.org,2002:".toList.map some)]

/-- The directives before a document: at most one version, 1.1 or 1.2, and each
tag handle once. -/
def directives : List Token → Bool → Reader → Result Reader
  | .version major minor :: rest, versioned, r =>
    if versioned || major != 1 || (minor != 1 && minor != 2) then .error r
    else directives rest true { r with tokens := rest }
  | .tagHandle handle expansion :: rest, versioned, r =>
    if (r.handles.lookup handle).isSome then .error r
    else
      directives rest versioned
        { r with tokens := rest, handles := r.handles ++ [(handle, expansion)] }
  | _, _, r => .ok { r with handles := r.handles ++ defaultHandles }

/-- The body of a document after its start mark, if any. -/
def body (fuel : Nat) (r : Reader) : Result Reader :=
  nodeUnless fuel
    (fun t => match t with
      | .version .. | .tagHandle .. | .documentStart | .documentEnd | .streamEnd => true
      | _ => false) .block r

/-- The first document, if there is one; without directives its start mark may
be missing. -/
def firstDocument (fuel : Nat) (r : Reader) : Result Reader := do
  match ← r.peek with
  | .streamEnd => .ok (r.emitEmpty)
  | .version .. | .tagHandle .. | .documentStart =>
    let r ← directives r.tokens false r
    match ← r.peek with
    | .documentStart => body fuel r.skip
    | _ => .error r
  | _ => node fuel .block { r with handles := defaultHandles }

/-- Whether nothing but end marks and the end of the text is left. -/
def atEnd : List Token → Bool
  | .documentEnd :: rest => atEnd rest
  | .streamEnd :: _ => true
  | _ => false

end Reader

/-- The document that a list of tokens makes. An empty text is a document with
one empty scalar. -/
def Document.ofTokens (tokens : List Token) : Document :=
  let start : Reader := ⟨tokens, [], [], [], []⟩
  match start.firstDocument (6 * tokens.length + 6) with
  | .ok r => ⟨r.events.reverse, r.targets, Reader.atEnd r.tokens⟩
  | .error r => ⟨r.events.reverse, r.targets, false⟩

end Yaml
end SitePlan
