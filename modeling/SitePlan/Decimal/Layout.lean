/-
# Writing a decimal

Two layouts of one number. The positional layout never uses an exponent. The
compact layout is positional with a point for 1e-5 up to 1e16 and scientific
outside, with or without a plus sign before an exponent that is not negative.

Key definitions: `Decimal.positional`, `Decimal.compact`, `floatPositional`,
`floatCompact`.
-/
import SitePlan.Decimal.Shortest

namespace SitePlan
namespace Decimal

/-- The decimal digits of a number. -/
def digitChars (n : Nat) : List Char := Nat.toDigits 10 n

/-- `n` zeros. -/
def zeros (n : Nat) : List Char := List.replicate n '0'

/-- The digits of `d` with a point `places` digits from the left; beyond the
digits on either side stand zeros, and a whole number ends in `.0`. -/
def withPoint (ds : List Char) (places : Int) : List Char :=
  if places ≤ 0 then ['0', '.'] ++ zeros (-places).toNat ++ ds
  else if (ds.length : Int) ≤ places then ds ++ zeros (places - ds.length).toNat ++ ['.', '0']
  else ds.take places.toNat ++ ['.'] ++ ds.drop places.toNat

/-- Without exponent, whatever the size. -/
def positional (d : Decimal) : List Char :=
  let ds := digitChars d.digits
  withPoint ds (ds.length + d.exponent)

/-- Positional from 1e-5 up to 1e16, otherwise one digit, the rest after a
point if there is a rest, and the exponent; `plus` stands before one that is not
negative. -/
def compact (plus : List Char) (d : Decimal) : List Char :=
  let ds := digitChars d.digits
  let places : Int := ds.length + d.exponent
  if -5 < places && places ≤ 16 then withPoint ds places
  else
    let exponent := (if places ≤ 0 then [] else plus) ++ (toString (places - 1)).toList
    match ds with
    | [] => []
    | [c] => c :: 'e' :: exponent
    | c :: rest => c :: '.' :: rest ++ 'e' :: exponent

end Decimal

/-- Whether the sign bit is set. -/
def signBit (x : Float) : Bool := 1 <<< 63 ≤ x.toBits.toNat

/-- A finite double in the given layout, with its sign. -/
def signed (layout : Decimal → List Char) (x : Float) : String :=
  String.ofList ((if signBit x then ['-'] else []) ++ layout (Decimal.ofFloat x))

/-- A finite double without exponent: `100.0`, `0.001`. -/
def floatPositional (x : Float) : String := signed Decimal.positional x

/-- A finite double with an exponent where it is very large or small, written
after `plus` if it is not negative: `1e21` or `1e+21`. -/
def floatCompact (plus : List Char) (x : Float) : String := signed (Decimal.compact plus) x

end SitePlan
