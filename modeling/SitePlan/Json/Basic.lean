/-
# JSON values

A JSON value keeps its numbers as they were meant: an integer of any size or a
double. An object keeps its fields in order.

Key definitions: `Json`, `Json.floatText`.
-/
import SitePlan.Decimal.Layout

namespace SitePlan

/-- A JSON value with ordered objects. -/
inductive Json
  | null
  | bool (b : Bool)
  | int (n : Int)
  | float (x : Float)
  | string (s : String)
  | array (items : List Json)
  | object (fields : List (String × Json))
  deriving Inhabited

namespace Json

/-- A finite double as JSON text: `100.0`, `1e+21`. -/
def floatText (x : Float) : String := floatCompact ['+'] x

/-- A field that is left out when there is no value. -/
def optionalField (name : String) (value : Option Json) : List (String × Json) :=
  match value with
  | some v => [(name, v)]
  | none => []

/-- A text field that is left out when there is no text. -/
def optionalString (name : String) (value : Option String) : List (String × Json) :=
  optionalField name (value.map .string)

/-- A field that is left out when its list is empty. -/
def listField (name : String) (items : List Json) : List (String × Json) :=
  if items.isEmpty then [] else [(name, .array items)]

/-- An array of texts. -/
def strings (texts : List String) : Json := .array (texts.map .string)

end Json
end SitePlan
