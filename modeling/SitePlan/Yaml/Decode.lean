/-
# Reading typed data from a value

A reader takes a value and gives data of one type or says what does not fit.
Texts, truth values, sequences and mappings are found under tags as well. Null
counts as an empty sequence and as an empty mapping.

The fields of a record are read in the order of the document, so that the first
misfit there is the one reported; a field that is missing is only reported
after them.

Key definitions: `Yaml.DecodeError`, `Yaml.Decode.value`, `Yaml.Decode.text`, `Yaml.Decode.list`,
`Yaml.Decode.optional`, `Yaml.Decode.fields`.
-/
import SitePlan.Yaml.Value.Describe

namespace SitePlan
namespace Yaml

/-- Why a value does not fit a type. -/
inductive DecodeError
  | invalidType (found : Value) (expected : String)
  | missingField (name : String)
  | unknownField (name : String) (known : List String)
  | duplicateField (name : String)
  | repeatedKey
  | misfit (message : String)
  deriving Repr

/-- Names between backquotes: two with "or", more after "one of". -/
def nameChoice : List String → String
  | [] => "there are no fields"
  | [a] => "expected `" ++ a ++ "`"
  | [a, b] => "expected `" ++ a ++ "` or `" ++ b ++ "`"
  | names => "expected one of " ++ ", ".intercalate (names.map fun n => "`" ++ n ++ "`")

/-- The wording of the error. -/
def DecodeError.message : DecodeError → String
  | invalidType found expected => "invalid type: " ++ found.kindText ++ ", expected " ++ expected
  | missingField name => "missing field `" ++ name ++ "`"
  | unknownField name known => "unknown field `" ++ name ++ "`, " ++ nameChoice known
  | duplicateField name => "duplicate field `" ++ name ++ "`"
  | repeatedKey => "duplicate entry in YAML map"
  | misfit message => message

namespace Decode

/-- A reader of one type. -/
abbrev Reader (α : Type) := Value → Except DecodeError α

/-- A value of any kind. One exclamation mark at the front of each tag is dropped
again, so that keys may come to agree, which they must not. -/
def value : Reader Value := fun v =>
  if v.hasTag then
    if v.bareTags.repeatsKey then .error .repeatedKey else .ok v.bareTags
  else .ok v

/-- A text. -/
def text : Reader String := fun v =>
  match v.untagged with
  | .string s => .ok s
  | found => .error (.invalidType found "a string")

/-- A truth value. -/
def bool : Reader Bool := fun v =>
  match v.untagged with
  | .bool b => .ok b
  | found => .error (.invalidType found "a boolean")

/-- A sequence of items of one type. -/
def list {α : Type} (item : Reader α) : Reader (List α) := fun v =>
  match v.untagged with
  | .sequence items => items.mapM item
  | .null => .ok []
  | found => .error (.invalidType found "a sequence")

/-- The entries of a mapping, which `expected` names in errors. -/
def entries (expected : String) : Reader (List (Value × Value)) := fun v =>
  match v.untagged with
  | .mapping es => .ok es
  | .null => .ok []
  | found => .error (.invalidType found expected)

/-- Nothing for null, otherwise what `read` gives. -/
def optional {α : Type} (read : Reader α) : Reader (Option α)
  | .null => .ok none
  | v => (read v).map some

/-- The name that a key gives to a field. -/
def fieldName : Reader String := fun key =>
  match key.untagged with
  | .string s => .ok s
  | found => .error (.invalidType found "field identifier")

/-- A test that a value fits, for a field that is read later. -/
abbrev Check := Value → Except DecodeError Unit

/-- The test that `read` succeeds. -/
def fits {α : Type} (read : Reader α) : Check := fun v => (read v).map fun _ => ()

/-- The named fields of a record in document order. `known` tests the fields of
the record, which must not repeat; `other` decides on any further ones. -/
def fields (known : String → Option Check) (other : String → Check) :
    List String → List (Value × Value) → Except DecodeError (List (String × Value))
  | _, [] => .ok []
  | seen, (key, v) :: rest => do
    let name ← fieldName key
    match known name with
    | some check =>
      if seen.contains name then .error (.duplicateField name)
      else
        check v
        let more ← fields known other (name :: seen) rest
        .ok ((name, v) :: more)
    | none =>
      other name v
      let more ← fields known other seen rest
      .ok ((name, v) :: more)

/-- Accepts any further field. -/
def ignoreOther : String → Check := fun _ _ => .ok ()

/-- Refuses any further field. -/
def refuseOther (names : List String) : String → Check := fun name _ =>
  .error (.unknownField name names)

/-- A field that must be there. -/
def required {α : Type} (name : String) (read : Reader α) (fs : List (String × Value)) :
    Except DecodeError α :=
  match fs.lookup name with
  | some v => read v
  | none => .error (.missingField name)

/-- A field with a default. -/
def withDefault {α : Type} (name : String) (default : α) (read : Reader α)
    (fs : List (String × Value)) : Except DecodeError α :=
  match fs.lookup name with
  | some v => read v
  | none => .ok default

end Decode
end Yaml
end SitePlan
