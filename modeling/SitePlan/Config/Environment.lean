/-
# Environment tags

A value tagged `!ENV` is replaced before anything else is read: by the value of
the named variable, or by that of the first of several named ones that is set.
Of two or more arguments the last is not a name but stands in, as it is, when
none is set. The text of a variable is read as a YAML scalar; what is no scalar
is taken as plain text. Any other tag is refused.

Where a fault lies is told by its field: the keys on the way to it joined by
points, and the places in sequences in brackets.

Key definitions: `Environment.readVariable`, `Environment.argument`,
`Environment.resolve`, `Environment.namesIn`.
-/
import SitePlan.Config.Error

namespace SitePlan
namespace Environment

open Yaml (Value)

/-- The tag that names variables. -/
def tagName : String := "ENV"

/-- A field in messages; the empty one is the document itself. -/
def fieldText (field : String) : String := if field = "" then "document root" else field

/-- The field of a key within another field. -/
def keyField (field : String) (key : Value) : String :=
  let name := key.text?.getD "?"
  if field = "" then name else field ++ "." ++ name

/-- The field of a place in a sequence. -/
def itemField (field : String) (i : Nat) : String := field ++ "[" ++ toString i ++ "]"

/-- The value that the text of a variable stands for. -/
def readVariable (raw : String) : Value :=
  if raw = "" then .string raw
  else match Value.ofText raw with
    | .ok .null => .null
    | .ok (.bool b) => .bool b
    | .ok (.number n) => .number n
    | .ok (.string s) => .string s
    | _ => .string raw

/-- The names of variables in a list of values. -/
def names : List Value → Except EnvironmentFault (List String)
  | [] => .ok []
  | v :: vs =>
    match v.text? with
    | none => .error .nameNotText
    | some name => (names vs).map (name :: ·)

/-- The names and the stand-in that the argument of a tag gives. -/
def argument : Value → Except EnvironmentFault (List String × Option Value)
  | .string name => .ok ([name], none)
  | .sequence [item] => (names [item]).map fun ns => (ns, none)
  | .sequence (item :: items) =>
    (names (item :: items).dropLast).map fun ns => (ns, (item :: items).getLast?)
  | _ => .error .badArgument

/-- The value that replaces a tag with the given argument. -/
def value (lookup : String → Option String) (arg : Value) : Except EnvironmentFault Value := do
  let (names, standIn) ← argument arg
  match names.findSome? lookup, standIn with
  | some raw, _ => .ok (readVariable raw)
  | none, some v => .ok v
  | none, none => .error (.unset names)

mutual

/-- Replaces the tags of a value that stands at `field`. -/
def resolve (lookup : String → Option String) (field : String) :
    Value → Except ConfigError Value
  | .tagged tag arg =>
    if Yaml.bareTag tag = tagName then
      (value lookup arg).mapError fun fault => .environment (fieldText field) fault
    else .error (.invalid (.unsupportedTag tag (fieldText field)))
  | .mapping entries => do
    let entries ← resolveEntries lookup field entries
    .ok (.mapping entries)
  | .sequence items => do
    let items ← resolveItems lookup field 0 items
    .ok (.sequence items)
  | v => .ok v

/-- Replaces the tags of the values of entries; keys stay as they are. -/
def resolveEntries (lookup : String → Option String) (field : String) :
    List (Value × Value) → Except ConfigError (List (Value × Value))
  | [] => .ok []
  | (k, v) :: rest => do
    let v ← resolve lookup (keyField field k) v
    let rest ← resolveEntries lookup field rest
    .ok ((k, v) :: rest)

/-- Replaces the tags of items, the first of them at place `i`. -/
def resolveItems (lookup : String → Option String) (field : String) :
    Nat → List Value → Except ConfigError (List Value)
  | _, [] => .ok []
  | i, v :: rest => do
    let v ← resolve lookup (itemField field i) v
    let rest ← resolveItems lookup field (i + 1) rest
    .ok (v :: rest)

end

/-! ### The variables that matter -/

mutual

/-- The names of variables in the outermost tags of a value. -/
def namesIn : Value → List String
  | .tagged tag arg =>
    if Yaml.bareTag tag = tagName then
      match argument arg with
      | .ok (names, _) => names
      | .error _ => []
    else []
  | .mapping entries => namesInEntries entries
  | .sequence items => namesInItems items
  | _ => []

/-- The names of variables in the values of entries. -/
def namesInEntries : List (Value × Value) → List String
  | [] => []
  | (_, v) :: rest => namesIn v ++ namesInEntries rest

/-- The names of variables in items. -/
def namesInItems : List Value → List String
  | [] => []
  | v :: rest => namesIn v ++ namesInItems rest

end

/-- The names of variables that a text refers to. -/
def namesInText (text : String) : List String :=
  match Value.ofText text with
  | .ok v => namesIn v
  | .error _ => []

end Environment
end SitePlan
