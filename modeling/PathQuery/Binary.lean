/-!
# Binary floating point, exactly

A finite 64-bit float is a sign and a natural number times a power of two. This module takes a float
apart into those and, in the other direction, finds the float nearest to a quotient of natural
numbers, a tie going to the even mantissa. All arithmetic is on natural numbers, so no step rounds
twice.
-/

namespace PathQuery.Binary

/-- What a float stands for: `finite` is `mantissa * 2 ^ exponent` with its sign. -/
inductive Parts where
  | notANumber
  | infinite (negative : Bool)
  | finite (negative : Bool) (mantissa : Nat) (exponent : Int)
  deriving DecidableEq, Repr

/-- The bit of the sign, above all others. -/
def signBit : Nat := Nat.pow 2 63

/-- The bit in front of the stored fraction, which every float of full precision has. -/
def leadingBit : Nat := Nat.pow 2 52

/-- The scale that infinities and the undefined number have. -/
def lastScale : Nat := 2047

def parts (x : Float) : Parts :=
  let bits : Nat := x.toBits.toNat
  let negative : Bool := signBit ≤ bits
  let scale : Nat := bits / leadingBit % (lastScale + 1)
  let fraction : Nat := bits % leadingBit
  if scale = lastScale then
    if fraction = 0 then .infinite negative else .notANumber
  else if scale = 0 then .finite negative fraction (-1074)
  else .finite negative (leadingBit + fraction) ((scale : Int) - 1075)

/-- The numerator and denominator of `n * base ^ exponent`. -/
def power (base n : Nat) : Int → Nat × Nat
  | .ofNat e => (n * Nat.pow base e, 1)
  | .negSucc e => (n, Nat.pow base (e + 1))

/-- The natural number nearest to `n / d`, a tie going to the even one. -/
def roundDiv (n d : Nat) : Nat :=
  let q := n / d
  let r := n % d
  if 2 * r < d then q else if d < 2 * r then q + 1 else if q % 2 = 0 then q else q + 1

/-- The exponent at which the mantissa of `n / d` has 53 bits, or the least exponent there is. -/
def exponentFor (n d : Nat) : Int :=
  let guess : Int := (n.log2 : Int) - (d.log2 : Int) - 53
  let (below, above) := power 2 1 guess
  max (if n * above < 2 * leadingBit * d * below then guess else guess + 1) (-1074)

/-- The float nearest to `n / d`, infinite once that leaves the range. -/
def nearest (negative : Bool) (n d : Nat) : Float :=
  let sign := if negative then signBit else 0
  let magnitude :=
    if n = 0 then 0 else
      let e := exponentFor n d
      let (scale, unit) := power 2 1 e
      min ((e + 1074).toNat * leadingBit + roundDiv (n * unit) (d * scale))
        (lastScale * leadingBit)
  Float.ofBits (UInt64.ofNat (sign + magnitude))

/-- A power of ten beyond all floats. -/
def decimalRange : Int := 400

/-- The exponent, brought into a range outside of which all floats near `digits * 10 ^ exponent` are
the same: infinity above it, and zero below it, as `digits` has no more decimal places than bits. -/
def clampExponent (digits : Nat) (exponent : Int) : Int :=
  max (-(decimalRange + digits.log2)) (min exponent decimalRange)

/-- The float nearest to `± digits * 10 ^ exponent`. -/
def ofDecimal (negative : Bool) (digits : Nat) (exponent : Int) : Float :=
  let (n, d) := power 10 digits (clampExponent digits exponent)
  nearest negative n d

def isFinite (x : Float) : Bool :=
  match parts x with
  | .finite .. => true
  | _ => false

end PathQuery.Binary
