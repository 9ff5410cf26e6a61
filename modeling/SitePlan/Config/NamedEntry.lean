/-
# Named entries with options

Markdown extensions and plugins are named entries with options. A list of them is
written as a sequence of names and of mappings with one name each, or as one
mapping of names to options.

Key definitions: `NamedEntry`, `NamedEntry.listOfValue`, `NamedEntry.option?`,
`NamedEntry.toJson`.
-/
import SitePlan.Yaml.Decode
import SitePlan.Yaml.Value.Json

namespace SitePlan

open Yaml (Value)

/-- A name with its options, none if the mapping is empty. -/
structure NamedEntry where
  name : String
  options : List (Value × Value)
  deriving Repr, Inhabited

/-- Why a value is no list of named entries. -/
inductive NamedShapeError
  | notList
  | keyCount (count : Nat)
  | notName (found : Value)
  | keyNotName (found : Value)
  | badOptions (name : String)
  deriving Repr

/-- The wording of the error. -/
def NamedShapeError.message : NamedShapeError → String
  | notList => "expected a list of names or a mapping of name to options"
  | keyCount count => "each item must name exactly one entry, found " ++ toString count ++ " keys"
  | notName found => "expected a name, found " ++ found.describe
  | keyNotName found => "entry names must be strings, found " ++ found.describe
  | badOptions name => "options for `" ++ name ++ "` must be a mapping"

namespace NamedEntry

/-- A name without options. -/
def plain (name : String) : NamedEntry := ⟨name, []⟩

/-- The value of an option. -/
def option? (e : NamedEntry) (key : String) : Option Value := Value.lookup key e.options

/-- The entry of a name and its options; null stands for none. -/
def ofPair : Value × Value → Except NamedShapeError NamedEntry
  | (.string name, .null) => .ok ⟨name, []⟩
  | (.string name, .mapping options) => .ok ⟨name, options⟩
  | (.string name, _) => .error (.badOptions name)
  | (key, _) => .error (.keyNotName key)

/-- The entry of an item of a sequence. -/
def ofItem : Value → Except NamedShapeError NamedEntry
  | .string name => .ok (plain name)
  | .mapping [pair] => ofPair pair
  | .mapping entries => .error (.keyCount entries.length)
  | v => .error (.notName v)

/-- The entries that a value lists. -/
def listOfValue : Value → Except NamedShapeError (List NamedEntry)
  | .null => .ok []
  | .sequence items => items.mapM ofItem
  | .mapping entries => entries.mapM ofPair
  | _ => .error .notList

/-- Reads a list of entries. -/
def readList : Yaml.Decode.Reader (List NamedEntry) := fun v => do
  let v ← Yaml.Decode.value v
  (listOfValue v).mapError fun e => .misfit e.message

/-- The JSON form of an entry; empty options are left out. -/
def toJson (e : NamedEntry) : Except Yaml.KeyError Json := do
  let options ← Value.entriesToJson e.options
  .ok (.object
    ([("name", .string e.name)] ++ (if e.options.isEmpty then [] else [("options", .object options)])))

end NamedEntry
end SitePlan
