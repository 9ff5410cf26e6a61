/-
# Values in messages

Two ways to name a value in a message. `describe` writes the whole value out, as
in `Sequence [Number(1), String("a")]`; `kindText` only says what kind it is, with
the value itself if it is small, as in "integer" and the number between
backquotes.

Key definitions: `Yaml.Number.text`, `Yaml.Value.describe`, `Yaml.Value.kindText`.
-/
import SitePlan.Decimal.Layout
import SitePlan.Text.Quoted
import SitePlan.Yaml.Value.Basic

namespace SitePlan
namespace Yaml

/-- A number as YAML writes it. -/
def Number.text : Number → String
  | int n => toString n
  | float x =>
    if x.isNaN then ".nan"
    else if x.isInf then (if signBit x then "-.inf" else ".inf")
    else floatCompact [] x

namespace Value

/-- A truth value as YAML writes it. -/
def boolText (b : Bool) : String := if b then "true" else "false"

mutual

/-- A value written out. -/
def describe : Value → String
  | null => "Null"
  | bool b => "Bool(" ++ boolText b ++ ")"
  | number n => "Number(" ++ n.text ++ ")"
  | string s => "String(" ++ Text.quote s ++ ")"
  | sequence items => "Sequence [" ++ describeItems items ++ "]"
  | mapping entries => "Mapping \x7b" ++ describeEntries entries ++ "\x7d"
  | tagged tag v => "TaggedValue \x7b tag: " ++ tagText tag ++ ", value: " ++ describe v ++ " \x7d"

/-- Items with commas between them. -/
def describeItems : List Value → String
  | [] => ""
  | [v] => describe v
  | v :: vs => describe v ++ ", " ++ describeItems vs

/-- A key: truth values, numbers and strings stand for themselves. -/
def describeKey : Value → String
  | bool b => boolText b
  | number n => n.text
  | string s => Text.quote s
  | null => "Null"
  | sequence items => "Sequence [" ++ describeItems items ++ "]"
  | mapping entries => "Mapping \x7b" ++ describeEntries entries ++ "\x7d"
  | tagged tag v => "TaggedValue \x7b tag: " ++ tagText tag ++ ", value: " ++ describe v ++ " \x7d"

/-- Entries with commas between them. -/
def describeEntries : List (Value × Value) → String
  | [] => ""
  | [(k, v)] => describeKey k ++ ": " ++ describe v
  | (k, v) :: es => describeKey k ++ ": " ++ describe v ++ ", " ++ describeEntries es

end

/-- A double in a message about kinds. -/
def floatKindText (x : Float) : String :=
  if x.isNaN then "NaN"
  else if x.isInf then (if signBit x then "-inf" else "inf")
  else floatPositional x

/-- The kind of a value. -/
def kindText : Value → String
  | null => "unit value"
  | bool b => "boolean `" ++ boolText b ++ "`"
  | number (.int n) => "integer `" ++ toString n ++ "`"
  | number (.float x) => "floating point `" ++ floatKindText x ++ "`"
  | string s => "string " ++ Text.quote s
  | sequence _ => "sequence"
  | mapping _ => "map"
  | tagged _ _ => "enum"

end Value
end Yaml
end SitePlan
