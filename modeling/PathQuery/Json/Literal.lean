import PathQuery.Json.Basic
/-!
# Number literals

The spelling of a number and what it stands for. A whole number within 64 bits is kept exactly. Any
other number becomes a float in two steps: the leading digits that fit 64 bits form a significand,
which is converted to a float, and that float is multiplied or divided by a power of ten. Digits
past those that fit only count as zeros before the point and not at all after it. The last digit of
the float can therefore differ from that of the nearest one.
-/

namespace PathQuery.Json

/-- The parts of a literal, with digits as they are spelled. -/
structure Literal where
  negative : Bool
  whole : List Char
  fraction : Option (List Char)
  exponent : Option Int
  deriving DecidableEq, Repr

namespace Literal

/-- A point and at least one digit, or no point at all. -/
def readFraction? : List Char → Option (Option (List Char) × List Char)
  | '.' :: rest =>
    let digits := rest.takeWhile Char.isDigit
    if digits.isEmpty then none else some (some digits, rest.dropWhile Char.isDigit)
  | rest => some (none, rest)

/-- The literal with this spelling: no leading zero, and a digit on both sides of a point. -/
def read? (spelling : List Char) : Option Literal :=
  let (negative, rest) := match spelling with
    | '-' :: rest => (true, rest)
    | rest => (false, rest)
  let whole := rest.takeWhile Char.isDigit
  if whole.isEmpty || (whole.head? == some '0' && whole.length != 1) then none else
    (readFraction? (rest.dropWhile Char.isDigit)).bind fun (fraction, tail) =>
      (Decimal.readExponent? tail).map fun exponent =>
        ⟨negative, whole, fraction, if tail.isEmpty then none else some exponent⟩

/-- The first number that does not fit 64 bits. -/
def wordSize : Nat := 2 * Binary.signBit

/-- Digits appended to a significand while it stays within 64 bits, and how many are left over. -/
def absorb (significand : Nat) : List Char → Nat × Nat
  | [] => (significand, 0)
  | digit :: rest =>
    let next := 10 * significand + (digit.toNat - '0'.toNat)
    if next < wordSize then absorb next rest else (significand, rest.length + 1)

/-- The largest power of ten that scales in one step. -/
def largestStep : Nat := 308

def tenTo (n : Nat) : Float := Binary.ofDecimal false 1 n

/-- Division by a power of ten in steps; zero stays zero. -/
def scaleDown (x : Float) (n : Nat) : Float :=
  if n ≤ largestStep then x / tenTo n
  else if x == 0 then x
  else scaleDown (x / tenTo largestStep) (n - largestStep)
termination_by n
decreasing_by simp [largestStep] at *; omega

/-- `x * 10 ^ exponent`, unless that is beyond all floats. -/
def scale? (x : Float) (exponent : Int) : Option Float :=
  if exponent < 0 then some (scaleDown x exponent.natAbs)
  else if exponent.natAbs ≤ largestStep then
    let product := x * tenTo exponent.natAbs
    if Binary.isFinite product then some product else none
  else if x == 0 then some x else none

/-- A whole number of up to 64 bits. The negative zero is a float, and so is what lies below the
signed range. -/
def integer (negative : Bool) (magnitude : Nat) : Number :=
  if !negative then .int magnitude
  else if magnitude = 0 || Binary.signBit < magnitude then
    .float (-Binary.nearest false magnitude 1)
  else .int (-magnitude)

/-- The number a literal stands for; none if its magnitude is beyond all floats. -/
def number? (literal : Literal) : Option Number :=
  let (whole, excess) := absorb 0 literal.whole
  if literal.fraction.isNone && literal.exponent.isNone && excess == 0 then
    some (integer literal.negative whole)
  else
    let fraction := literal.fraction.getD []
    let (significand, unused) := absorb whole fraction
    let absorbed := fraction.length - unused
    let exponent := (excess : Int) - (absorbed : Int) + literal.exponent.getD 0
    (scale? (Binary.nearest false significand 1) exponent).map fun x =>
      .float (if literal.negative then -x else x)

end Literal

end PathQuery.Json
