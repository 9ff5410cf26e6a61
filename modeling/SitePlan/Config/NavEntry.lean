/-
# Declared navigation entries

An entry of the declared navigation is a page, an external link, or a group of
entries. A page may stand alone by its path; all else carries a label, as the
one key of a mapping. A target is external when it begins like a web address, or
with `//` or `mailto:`.

Key definitions: `NavEntry`, `isExternal`, `NavEntry.ofValue`, `NavEntry.toJson`.
-/
import SitePlan.Json.Basic
import SitePlan.Text.Basic
import SitePlan.Yaml.Decode

namespace SitePlan

/-- The beginnings of external targets. -/
def externalStarts : List String := ["http://", "https://", "//", "mailto:"]

/-- Whether a target lies outside the site. -/
def isExternal (target : String) : Bool :=
  externalStarts.any fun start => Text.startsWith start.toList target.toList

/-- An entry of the declared navigation. -/
inductive NavEntry
  | page (title : Option String) (path : String)
  | link (title url : String)
  | group (title : String) (children : List NavEntry)
  deriving Repr, Inhabited

/-- Why a value is no navigation entry. -/
inductive NavShapeError
  | linkWithoutLabel (url : String)
  | labelCount (count : Nat)
  | labelNotText (label : Yaml.Value)
  | noTarget (title : String)
  | badTarget (title : String)
  | badEntry
  deriving Repr

/-- The wording of the error. -/
def NavShapeError.message : NavShapeError → String
  | linkWithoutLabel url =>
    "nav link `" ++ url ++ "` needs a label (use `- Label: " ++ url ++ "`)"
  | labelCount count => "nav entry must have exactly one label, found " ++ toString count
  | labelNotText label => "nav label must be a string, found " ++ label.describe
  | noTarget title => "nav entry `" ++ title ++ "` has no target"
  | badTarget title =>
    "nav entry `" ++ title ++ "` must point to a page, a link, or a list of entries"
  | badEntry => "nav entry must be a path or a single-key mapping"

namespace NavEntry

/-- The label of an entry; a page that stands alone has none. -/
def label? : NavEntry → Option String
  | page title _ => title
  | link title _ => some title
  | group title _ => some title

mutual

/-- The entry that a value declares. -/
def ofValue : Yaml.Value → Except NavShapeError NavEntry
  | .string path =>
    if isExternal path then .error (.linkWithoutLabel path) else .ok (page none path)
  | .mapping [(.string title, target)] => ofTarget title target
  | .mapping [(label, _)] => .error (.labelNotText label)
  | .mapping entries => .error (.labelCount entries.length)
  | _ => .error .badEntry

/-- The entry with a label and the given target. -/
def ofTarget (title : String) : Yaml.Value → Except NavShapeError NavEntry
  | .string target =>
    if isExternal target then .ok (link title target) else .ok (page (some title) target)
  | .sequence items => do
    let children ← ofValues items
    .ok (group title children)
  | .null => .error (.noTarget title)
  | _ => .error (.badTarget title)

/-- The entries that a list of values declares. -/
def ofValues : List Yaml.Value → Except NavShapeError (List NavEntry)
  | [] => .ok []
  | v :: vs => do
    let e ← ofValue v
    let es ← ofValues vs
    .ok (e :: es)

end

/-- Reads an entry. -/
def read : Yaml.Decode.Reader NavEntry := fun v => do
  let v ← Yaml.Decode.value v
  (ofValue v).mapError fun e => .misfit e.message

mutual

/-- The JSON form of an entry. -/
def toJson : NavEntry → Json
  | page title path =>
    .object ([("kind", .string "page")] ++ Json.optionalString "title" title ++
      [("path", .string path)])
  | link title url =>
    .object [("kind", .string "link"), ("title", .string title), ("url", .string url)]
  | group title children =>
    .object
      [("kind", .string "section"), ("title", .string title),
        ("children", .array (listToJson children))]

/-- The JSON forms of entries. -/
def listToJson : List NavEntry → List Json
  | [] => []
  | e :: es => toJson e :: listToJson es

end

end NavEntry
end SitePlan
