/-
# Events: the tree of a document, written out

A document is a sequence of events: scalars, references to anchored nodes, and
the beginnings and ends of collections. A reference and an anchor share a
number; `Document.targets` leads from the number to the event with the anchor.

Key definitions: `Yaml.Tag`, `Yaml.Event`, `Yaml.Document`.
-/
import SitePlan.Yaml.Token.Basic

namespace SitePlan
namespace Yaml

/-- A tag in full: one of the document's own (`!name`), one that is meant to be
and whose octets form no text, or a global one. -/
inductive Tag
  | own (name : List Char)
  | unreadable
  | global (text : List Char)
  deriving DecidableEq, Repr

/-- The tag with the given text. The name of one of the document's own is what
follows the exclamation mark; the mark alone is its own name. -/
def Tag.ofText : TagText → Tag
  | [some '!'] => .own ['!']
  | some '!' :: name =>
    match name.mapM id with
    | some name => .own name
    | none => .unreadable
  | text => .global ((text.mapM id).getD [])

/-- One event. -/
inductive Event
  | reference (anchor : Nat)
  | scalar (tag : Option Tag) (text : List Char) (style : ScalarStyle)
  | sequenceStart (tag : Option Tag)
  | sequenceEnd
  | mappingStart (tag : Option Tag)
  | mappingEnd
  deriving DecidableEq, Repr

/-- The first document of a text. -/
structure Document where
  /-- The events of the document, as far as it is well formed. -/
  events : List Event
  /-- For the number of an anchor, the place of its event. -/
  targets : List (Nat × Nat)
  /-- Whether the document and the text around it are well formed, and no other
  document follows. -/
  complete : Bool
  deriving DecidableEq, Repr

/-- The events from the one with the anchor on. -/
def Document.target (d : Document) (anchor : Nat) : List Event :=
  match d.targets.lookup anchor with
  | some place => d.events.drop place
  | none => []

end Yaml
end SitePlan
