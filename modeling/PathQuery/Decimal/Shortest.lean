import PathQuery.Binary
/-!
# The fewest digits that read back

Every real number in an interval around a finite float is read as that float. Among the decimals in
that interval the ones with the fewest digits are chosen, and of those the one nearest to the float
itself, a tie going to the even last digit. Seventeen digits always reach the interval.
-/

namespace PathQuery

/-- The decimal `digits * 10 ^ exponent`. -/
structure Decimal where
  digits : Nat
  exponent : Int
  deriving DecidableEq, Repr

namespace Decimal

open Binary

/-- A positive real `low / unit < value / unit < high / unit` with its neighbourhood; the ends
belong to it exactly if `closed`. -/
structure Neighbourhood where
  low : Nat
  value : Nat
  high : Nat
  unit : Nat
  closed : Bool

namespace Neighbourhood

/-- The reals that are read as `mantissa * 2 ^ exponent`. The float below a power of two is only
half as far away as the one above it. -/
def of (mantissa : Nat) (exponent : Int) : Neighbourhood :=
  let (scale, unit) := power 2 1 (exponent - 2)
  let below := if mantissa = leadingBit ∧ exponent ≠ -1074 then 1 else 2
  { low := (4 * mantissa - below) * scale
    value := 4 * mantissa * scale
    high := (4 * mantissa + 2) * scale
    unit
    closed := mantissa % 2 = 0 }

/-- Whether `n / d` lies in the neighbourhood. -/
def contains (range : Neighbourhood) (n d : Nat) : Bool :=
  let here := n * range.unit
  (range.low * d < here && here < range.high * d) ||
    (range.closed && (here == range.low * d || here == range.high * d))

/-- The exponent `e` with `10 ^ e ≤ value / unit < 10 ^ (e + 1)`. -/
def decade (range : Neighbourhood) : Int :=
  let guess := ((range.value.log2 : Int) - (range.unit.log2 : Int)) * 30103 / 100000
  let reached (e : Int) : Bool :=
    let (n, d) := power 10 1 e
    n * range.unit ≤ range.value * d
  if reached (guess + 1) then guess + 1 else if reached guess then guess else guess - 1

/-- The decimal in the neighbourhood on the grid of step `10 ^ exponent` that is nearest to the
value, if there is one. It is one of the value's two neighbours on that grid. -/
def onGrid? (range : Neighbourhood) (exponent : Int) : Option Decimal :=
  let (step, part) := power 10 1 exponent
  let k := range.value * part / (range.unit * step)
  let below := range.contains (k * step) part
  let above := range.contains ((k + 1) * step) part
  let toBelow := range.value * part - k * step * range.unit
  let toAbove := (k + 1) * step * range.unit - range.value * part
  if below && above then
    if toBelow < toAbove || (toBelow == toAbove && k % 2 == 0) then some ⟨k, exponent⟩
    else some ⟨k + 1, exponent⟩
  else if below then some ⟨k, exponent⟩
  else if above then some ⟨k + 1, exponent⟩
  else none

end Neighbourhood

/-- The shortest decimal that reads back as `mantissa * 2 ^ exponent`. -/
def shortest (mantissa : Nat) (exponent : Int) : Decimal :=
  let range := Neighbourhood.of mantissa exponent
  let decade := range.decade
  ((List.range 17).findSome? fun (count : Nat) => range.onGrid? (decade - count)).getD ⟨0, 0⟩

end Decimal

end PathQuery
