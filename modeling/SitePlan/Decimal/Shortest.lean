/-
# The shortest decimal that reads back

A finite double is a mantissa times a power of two. Among the decimals that
round to it, `shortest` takes one with the fewest digits, and of those the
nearest. The search is exact: everything is a ratio of natural numbers.

A decimal rounds to the double when it lies between the midpoints to the
neighbouring doubles, ends included exactly if the mantissa is even. The grid
with `n` digits has a point there if and only if one of the value's two
neighbours on the grid is there, so only those two are tried, for `n` from 1.

Key definitions: `Decimal.ofFloat`, `Decimal.shortest`.
-/
namespace SitePlan

/-- The number `digits · 10 ^ exponent`. -/
structure Decimal where
  digits : Nat
  exponent : Int
  deriving DecidableEq, Repr

namespace Decimal

/-- A positive double with the midpoints to its neighbours, over one
denominator. -/
structure Interval where
  value : Nat
  low : Nat
  high : Nat
  denominator : Nat
  closed : Bool

/-- The interval of `mantissa · 2 ^ exponent`. The gap below the smallest
mantissa of a binade is half the gap above it. -/
def Interval.ofBinary (mantissa : Nat) (exponent : Int) (narrowBelow : Bool) : Interval :=
  let scale := 1 <<< exponent.toNat
  { value := 4 * mantissa * scale
    low := (4 * mantissa - if narrowBelow then 1 else 2) * scale
    high := (4 * mantissa + 2) * scale
    denominator := 4 <<< (-exponent).toNat
    closed := mantissa % 2 == 0 }

/-- The power `10 ^ k`, one if `k` is negative. -/
def tenTo (k : Int) : Nat := Nat.pow 10 k.toNat

/-- Whether `10 ^ k` is at most `num / den`. -/
def powerBelow (num den : Nat) (k : Int) : Bool := tenTo k * den ≤ num * tenTo (-k)

/-- The `k` with `10 ^ k ≤ num / den < 10 ^ (k + 1)`, from an estimate by the
binary logarithm that is at most two too small. -/
def decimalExponent (num den : Nat) : Int :=
  let estimate := ((num.log2 : Int) - den.log2 - 1) * 30103 / 100000
  if powerBelow num den (estimate + 2) then estimate + 2
  else if powerBelow num den (estimate + 1) then estimate + 1
  else if powerBelow num den estimate then estimate
  else estimate - 1

/-- Whether `digits · 10 ^ exponent` rounds to the double. -/
def Interval.contains (i : Interval) (d : Decimal) : Bool :=
  let point := d.digits * tenTo d.exponent * i.denominator
  let unit := tenTo (-d.exponent)
  if i.closed then i.low * unit ≤ point && point ≤ i.high * unit
  else i.low * unit < point && point < i.high * unit

/-- The better of the value's two neighbours on the grid with steps of
`10 ^ exponent`, if one of them rounds to the double. A tie goes to the even
neighbour. -/
def Interval.onGrid (i : Interval) (exponent : Int) : Option Decimal :=
  let num := i.value * tenTo (-exponent)
  let den := i.denominator * tenTo exponent
  let below : Decimal := ⟨num / den, exponent⟩
  let above : Decimal := ⟨num / den + 1, exponent⟩
  match i.contains below, i.contains above with
  | true, true =>
    let twice := 2 * (num % den)
    if twice < den || (twice == den && below.digits % 2 == 0) then some below else some above
  | true, false => some below
  | false, true => some above
  | false, false => none

/-- The number without trailing zeros in its digits, at most `fuel` of them. -/
def trimZeros : Nat → Decimal → Decimal
  | 0, d => d
  | fuel + 1, d =>
    if d.digits ≠ 0 ∧ d.digits % 10 = 0 then trimZeros fuel ⟨d.digits / 10, d.exponent + 1⟩ else d

/-- The shortest decimal in the interval of a positive double. -/
def Interval.shortest (i : Interval) : Decimal :=
  let k := decimalExponent i.value i.denominator
  match (List.range 17).findSome? fun (n : Nat) => i.onGrid (k - n) with
  | some d => trimZeros 20 d
  | none => ⟨0, 0⟩

/-- The shortest decimal that rounds to `|x|`, for finite `x`. -/
def ofFloat (x : Float) : Decimal :=
  let bits := x.toBits.toNat
  let fraction : Nat := bits % (1 <<< 52)
  let biased : Nat := (bits >>> 52) % (1 <<< 11)
  if biased = 0 ∧ fraction = 0 then ⟨0, 0⟩
  else if biased = 0 then (Interval.ofBinary fraction (-1074) false).shortest
  else
    (Interval.ofBinary ((1 <<< 52) + fraction) ((biased : Int) - 1075)
      (fraction == 0 && biased != 1)).shortest

end Decimal
end SitePlan
