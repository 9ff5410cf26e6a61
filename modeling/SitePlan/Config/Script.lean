/-
# Extra scripts

A script is a path or address with loading flags. It is written as the path
alone, or as a mapping with the fields `path`, `type`, `async` and `defer`, of
which only `path` is needed. The fields may also be given by number, in this
order from 0; further fields are ignored. No part of a script may be tagged.

Key definitions: `Script`, `Script.read`, `Script.toJson`.
-/
import SitePlan.Json.Basic
import SitePlan.Yaml.Decode

namespace SitePlan

open Yaml (Value DecodeError)

/-- A script to load, with its `type` attribute and loading flags. -/
structure Script where
  path : String
  type : Option String
  isAsync : Bool
  isDeferred : Bool
  deriving DecidableEq, Repr, Inhabited

/-- The error for a tag where none may stand. -/
def tagNotAllowed : DecodeError :=
  .misfit "untagged and internally tagged enums do not support enum input"

namespace Script

/-- A script given by its path alone. -/
def plain (path : String) : Script := ⟨path, none, false, false⟩

/-- A field of a script. -/
inductive Field
  | path
  | type
  | isAsync
  | isDeferred
  deriving DecidableEq, Repr

/-- The field that a key names, `some none` for a further one; `none` if the key
can name no field. -/
def fieldOfKey? : Value → Option (Option Field)
  | .string "path" => some (some .path)
  | .string "type" => some (some .type)
  | .string "async" => some (some .isAsync)
  | .string "defer" => some (some .isDeferred)
  | .string _ => some none
  | .number (.int n) =>
    if n < 0 then none
    else some ([Field.path, .type, .isAsync, .isDeferred][n.toNat]?)
  | _ => none

/-- The fields of a mapping, each at most once. -/
def fieldsOf? : List (Value × Value) → Option (List (Field × Value))
  | [] => some []
  | (key, v) :: rest => do
    let field ← fieldOfKey? key
    let more ← fieldsOf? rest
    match field with
    | some field => if (more.lookup field).isSome then none else some ((field, v) :: more)
    | none => some more

/-- A text, `none` if the value is something else. -/
def text? : Value → Option String
  | .string s => some s
  | _ => none

/-- A text or null, for a missing one too. -/
def optionalText? : Option Value → Option (Option String)
  | none => some none
  | some .null => some none
  | some (.string s) => some (some s)
  | some _ => none

/-- A flag, off when it is missing. -/
def flag? : Option Value → Option Bool
  | none => some false
  | some (.bool b) => some b
  | some _ => none

/-- The script of the fields of a mapping. -/
def ofEntries? (entries : List (Value × Value)) : Option Script := do
  let fields ← fieldsOf? entries
  let path ← (fields.lookup .path).bind text?
  let type ← optionalText? (fields.lookup .type)
  let isAsync ← flag? (fields.lookup .isAsync)
  let isDeferred ← flag? (fields.lookup .isDeferred)
  some ⟨path, type, isAsync, isDeferred⟩

/-- The script that an untagged value stands for. -/
def ofValue? : Value → Option Script
  | .string path => some (plain path)
  | .mapping entries => ofEntries? entries
  | _ => none

/-- Reads a script. -/
def read : Yaml.Decode.Reader Script := fun v =>
  if v.hasTag then .error tagNotAllowed
  else match ofValue? v with
    | some s => .ok s
    | none => .error (.misfit "data did not match any variant of untagged enum ScriptRaw")

/-- The JSON form; what has its default is left out. -/
def toJson (s : Script) : Json :=
  .object
    ([("path", .string s.path)] ++ Json.optionalString "type" s.type ++
      (if s.isAsync then [("async", .bool true)] else []) ++
      (if s.isDeferred then [("defer", .bool true)] else []))

end Script
end SitePlan
