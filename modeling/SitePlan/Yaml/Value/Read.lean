/-
# Reading a value from a document

A reference is read as the node that it refers to. Reading fails on a key that a
mapping has already, on more than 128 collections inside one another, and when
references are followed more than a hundred times per event; a document whose
events run out fails as well.

A tag of the document's own makes a tagged value, and the node is read as if
untagged within it.

Key definitions: `Yaml.ReadError`, `Yaml.Value.ofDocument`, `Yaml.Value.ofText`.
-/
import SitePlan.Yaml.Event.Grammar
import SitePlan.Yaml.Token.Lexer
import SitePlan.Yaml.Value.Scalar

namespace SitePlan
namespace Yaml

/-- Why a text is not one YAML value. -/
inductive ReadError
  | malformed
  | duplicateKey
  deriving DecidableEq, Repr

/-- What has been read: the value, the events after it and the number of
references followed so far. -/
structure Reading (α : Type) where
  value : α
  rest : List Event
  jumps : Nat

/-- A reader of one node, given the number of references followed so far. -/
abbrev NodeReader := List Event → Nat → Except ReadError (Reading Value)

namespace Value

/-- The items up to the end of a sequence, each read by `node`. -/
def readItems (node : NodeReader) : Nat → List Event → Nat → Except ReadError (Reading (List Value))
  | 0, _, _ => .error .malformed
  | fuel + 1, events, jumps =>
    match events with
    | .sequenceEnd :: rest => .ok ⟨[], rest, jumps⟩
    | _ => do
      let v ← node events jumps
      let vs ← readItems node fuel v.rest v.jumps
      .ok { vs with value := v.value :: vs.value }

/-- The entries up to the end of a mapping, after those already `read` (latest
first). -/
def readEntries (node : NodeReader) :
    Nat → List (Value × Value) → List Event → Nat →
      Except ReadError (Reading (List (Value × Value)))
  | 0, _, _, _ => .error .malformed
  | fuel + 1, read, events, jumps =>
    match events with
    | .mappingEnd :: rest => .ok ⟨read.reverse, rest, jumps⟩
    | _ => do
      let k ← node events jumps
      if read.any fun e => e.1.sameKey k.value then .error .duplicateKey
      else
        let v ← node k.rest k.jumps
        readEntries node fuel ((k.value, v.value) :: read) v.rest v.jumps

/-- Puts a value under the tag, if the tag makes a tagged value. -/
def underTag (tag : Option Tag) (v : Value) : Value :=
  match tag with
  | some (.own name) => .tagged (String.ofList name) v
  | _ => v

/-- The value of a scalar event, apart from a tag of the document's own. -/
def scalarValue (tag : Option Tag) (text : List Char) (style : ScalarStyle) : Option Value :=
  match tag with
  | some (.global uri) => ofTagged uri text
  | _ => ofScalar text style

/-- A node that is not a reference, with the reader for nested nodes, if they
are not too deep. -/
def readContent (d : Document) (nested : Option NodeReader) : NodeReader :=
  fun events jumps =>
    match events, nested with
    | .scalar tag text style :: rest, _ =>
      match scalarValue tag text style with
      | some v => .ok ⟨underTag tag v, rest, jumps⟩
      | none => .error .malformed
    | .sequenceStart tag :: rest, some node => do
      let items ← readItems node (d.events.length + 1) rest jumps
      .ok ⟨underTag tag (.sequence items.value), items.rest, items.jumps⟩
    | .mappingStart tag :: rest, some node => do
      let entries ← readEntries node (d.events.length + 1) [] rest jumps
      .ok ⟨underTag tag (.mapping entries.value), entries.rest, entries.jumps⟩
    | _, _ => .error .malformed

/-- A node, or the one that a reference refers to. -/
def readWith (d : Document) (nested : Option NodeReader) : NodeReader :=
  fun events jumps =>
    match events with
    | .reference anchor :: rest =>
      if 100 * d.events.length < jumps + 1 then .error .malformed
      else do
        let v ← readContent d nested (d.target anchor) (jumps + 1)
        .ok { v with rest := rest }
    | _ => readContent d nested events jumps

/-- A node with at most `depth` collections inside one another. -/
def readNode (d : Document) : Nat → NodeReader
  | 0 => readWith d none
  | depth + 1 => readWith d (some (readNode d depth))

/-- The number of collections that may stand inside one another. -/
def maxDepth : Nat := 128

/-- The value of a document. -/
def ofDocument (d : Document) : Except ReadError Value := do
  let v ← readNode d maxDepth d.events 0
  if d.complete then .ok v.value else .error .malformed

/-- The value of a text. -/
def ofText (text : String) : Except ReadError Value :=
  ofDocument (Document.ofTokens (tokens text.toList))

end Value
end Yaml
end SitePlan
