/-
# Reading a decimal literal

A literal is an optional minus sign, digits with at most one point and at least
one digit on one of its sides, and an optional exponent. Its value is the
nearest double; one that is too large has none.

Key definitions: `Decimal.readFloat?`.
-/
import SitePlan.Decimal.Shortest

namespace SitePlan
namespace Decimal

/-- The value of a list of decimal digits. -/
def digitsValue (ds : List Char) : Nat :=
  ds.foldl (fun n c => 10 * n + (c.toNat - '0'.toNat)) 0

/-- The optional exponent at the end of a literal. -/
def readExponent? : List Char → Option Int
  | [] => some 0
  | c :: rest =>
    if c = 'e' ∨ c = 'E' then
      let (negative, ds) := match rest with
        | '-' :: ds => (true, ds)
        | '+' :: ds => (false, ds)
        | ds => (false, ds)
      if ds ≠ [] ∧ ds.all Char.isDigit then
        some (if negative then -(digitsValue ds : Int) else digitsValue ds)
      else none
    else none

/-- An unsigned literal as an exact decimal. -/
def readUnsigned? (cs : List Char) : Option Decimal :=
  let whole := cs.takeWhile Char.isDigit
  let rest := cs.dropWhile Char.isDigit
  let (fraction, rest) := match rest with
    | '.' :: rest => (rest.takeWhile Char.isDigit, rest.dropWhile Char.isDigit)
    | rest => ([], rest)
  if whole = [] ∧ fraction = [] then none
  else (readExponent? rest).map fun e => ⟨digitsValue (whole ++ fraction), e - fraction.length⟩

/-- The nearest double, `none` when it is not finite. Exponents far outside the
range of doubles are decided by the number of digits alone. -/
def toFloat? (negative : Bool) (d : Decimal) : Option Float :=
  let places := (placesOf d.digits : Int) + d.exponent
  let magnitude :=
    if d.digits = 0 ∨ places < -400 then some 0.0
    else if 400 < places then none
    else
      let x := Float.ofScientific d.digits (d.exponent < 0) d.exponent.natAbs
      if x.isFinite then some x else none
  magnitude.map fun x => if negative then -x else x
where
  /-- The number of decimal digits of a number. -/
  placesOf (n : Nat) : Nat := (Nat.toDigits 10 n).length

/-- The finite double that a literal stands for. -/
def readFloat? : List Char → Option Float
  | '-' :: cs => (readUnsigned? cs).bind (toFloat? true)
  | cs => (readUnsigned? cs).bind (toFloat? false)

end Decimal
end SitePlan
