/-
# What a plain scalar means

A plain scalar is null, a truth value, an integer, a double or a string, by its
spelling. Integers are decimal, hexadecimal, octal or binary and fit 64 bits;
one that only fits 128 bits has no value at all. Digits after a leading zero
are a string. A double too large to be finite is a string.

Key definitions: `Yaml.Value.ofPlain`, `Yaml.Value.ofScalar`.
-/
import SitePlan.Decimal.Literal
import SitePlan.Text.Basic
import SitePlan.Yaml.Character
import SitePlan.Yaml.Event.Basic
import SitePlan.Yaml.Value.Basic

namespace SitePlan
namespace Yaml

/-- The spellings of null, the empty one apart. -/
def isNullWord (cs : List Char) : Bool :=
  ["null", "Null", "NULL", "~"].any fun w => w.toList == cs

/-- The truth value with the given spelling. -/
def boolWord? (cs : List Char) : Option Bool :=
  if ["true", "True", "TRUE"].any fun w => w.toList == cs then some true
  else if ["false", "False", "FALSE"].any fun w => w.toList == cs then some false
  else none

/-- The value of digits in the given base; `none` if there are none or one is
not a digit. -/
def digitsIn? (base : Nat) (cs : List Char) : Option Nat :=
  if cs.isEmpty then none
  else cs.foldlM (fun n c => do
    let d ← hexValue? c
    if d < base then some (base * n + d) else none) 0

/-- The base that digits are marked with, and the digits. -/
def markedBase? : List Char → Option (Nat × List Char)
  | '0' :: 'x' :: ds => some (16, ds)
  | '0' :: 'o' :: ds => some (8, ds)
  | '0' :: 'b' :: ds => some (2, ds)
  | _ => none

/-- Whether the text is an optional sign, a zero and further digits. -/
def isZeroLed (cs : List Char) : Bool :=
  let ds := match cs with
    | '-' :: ds => ds
    | '+' :: ds => ds
    | ds => ds
  match ds with
  | '0' :: d :: ds => (d :: ds).all Char.isDigit
  | _ => false

/-- The integer with the given spelling, of any size. -/
def integerWord? (cs : List Char) : Option Int :=
  let (negative, ds) := match cs with
    | '-' :: ds => (true, ds)
    | '+' :: ds => (false, ds)
    | ds => (false, ds)
  let magnitude := match markedBase? ds with
    | some (base, ds) => digitsIn? base ds
    | none => if isZeroLed cs then none else digitsIn? 10 ds
  magnitude.map fun n => if negative then -(n : Int) else n

/-- The spellings of the doubles that are not finite. -/
def specialFloat? (cs : List Char) : Option Float :=
  let infinity : Float := 1.0 / 0.0
  let unsigned := match cs with
    | '+' :: ds => ds
    | ds => ds
  if [".inf", ".Inf", ".INF"].any fun w => w.toList == unsigned then some infinity
  else if ["-.inf", "-.Inf", "-.INF"].any fun w => w.toList == cs then some (-infinity)
  else if [".nan", ".NaN", ".NAN"].any fun w => w.toList == cs then some (0.0 / 0.0)
  else none

/-- The double with the given spelling. -/
def floatWord? (cs : List Char) : Option Float :=
  match specialFloat? cs with
  | some x => some x
  | none =>
    match cs with
    | '+' :: '-' :: _ => none
    | '+' :: ds => Decimal.readFloat? ds
    | ds => Decimal.readFloat? ds

/-- The integers that a value may hold. -/
def fits64 (n : Int) : Bool := -((1 <<< 63 : Nat) : Int) ≤ n && n < (1 <<< 64 : Nat)

/-- The integers of at most 128 bits. -/
def fits128 (n : Int) : Bool := -((1 <<< 127 : Nat) : Int) ≤ n && n < (1 <<< 128 : Nat)

/-- An integer with the given spelling as a value: `some none` when it fits 128
bits only, `none` when the spelling is no such integer. -/
def integerValue? (cs : List Char) : Option (Option Value) :=
  (integerWord? cs).bind fun n =>
    if fits64 n then some (some (.number (.int n)))
    else if fits128 n then some none
    else none

namespace Value

/-- The value of a plain scalar. -/
def ofPlain (cs : List Char) : Option Value :=
  if cs.isEmpty || isNullWord cs then some .null
  else match boolWord? cs with
    | some b => some (.bool b)
    | none => match integerValue? cs with
      | some v => v
      | none =>
        match if isZeroLed cs then none else floatWord? cs with
        | some x => some (.number (.float x))
        | none => some (.string (String.ofList cs))

/-- The tag with the given name among those of the core schema. -/
def coreTag (name : String) : List Char := "tag:yaml.org,2002:".toList ++ name.toList

/-- The value of a scalar that has the given global tag. A core tag wants a
spelling of its own; any other makes a string. -/
def ofTagged (tag cs : List Char) : Option Value :=
  if tag = coreTag "bool" then (boolWord? cs).map .bool
  else if tag = coreTag "int" then (integerValue? cs).join
  else if tag = coreTag "float" then (floatWord? cs).map fun x => .number (.float x)
  else if tag = coreTag "null" then (if isNullWord cs then some .null else none)
  else some (.string (String.ofList cs))

/-- The value of a scalar without a tag. -/
def ofScalar (cs : List Char) (style : ScalarStyle) : Option Value :=
  if style = .plain then ofPlain cs else some (.string (String.ofList cs))

end Value
end Yaml
end SitePlan
