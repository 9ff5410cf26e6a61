/-
# Values as JSON

Null, truth values, integers, doubles, strings, sequences and mappings become
their JSON like. A key that is a number or a truth value becomes its text; any
other key that is not a string has no JSON form. A tagged value becomes an object
whose one field is the tag.

Key definitions: `Yaml.KeyError`, `Yaml.Value.toJson`.
-/
import SitePlan.Json.Basic
import SitePlan.Yaml.Value.Describe

namespace SitePlan
namespace Yaml

/-- Why a key has no JSON form. -/
inductive KeyError
  | notText
  | notFinite
  deriving DecidableEq, Repr

/-- The wording of the error. -/
def KeyError.message : KeyError → String
  | notText => "key must be a string"
  | notFinite => "float key must be finite (got NaN or +/-inf)"

namespace Value

/-- The text of a key. -/
def keyText : Value → Except KeyError String
  | string s => .ok s
  | bool b => .ok (boolText b)
  | number (.int n) => .ok (toString n)
  | number (.float x) => if x.isFinite then .ok (Json.floatText x) else .error .notFinite
  | _ => .error .notText

mutual

/-- The JSON form of a value. -/
def toJson : Value → Except KeyError Json
  | null => .ok .null
  | bool b => .ok (.bool b)
  | number (.int n) => .ok (.int n)
  | number (.float x) => .ok (.float x)
  | string s => .ok (.string s)
  | sequence items => do
    let items ← itemsToJson items
    .ok (.array items)
  | mapping entries => do
    let fields ← entriesToJson entries
    .ok (.object fields)
  | tagged tag v => do
    let v ← toJson v
    .ok (.object [(tagText tag, v)])

/-- The JSON forms of the items. -/
def itemsToJson : List Value → Except KeyError (List Json)
  | [] => .ok []
  | v :: vs => do
    let v ← toJson v
    let vs ← itemsToJson vs
    .ok (v :: vs)

/-- The fields for the entries of a mapping. -/
def entriesToJson : List (Value × Value) → Except KeyError (List (String × Json))
  | [] => .ok []
  | (k, v) :: es => do
    let k ← keyText k
    let v ← toJson v
    let es ← entriesToJson es
    .ok ((k, v) :: es)

end

end Value
end Yaml
end SitePlan
