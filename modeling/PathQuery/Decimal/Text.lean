import PathQuery.Decimal.Shortest
/-!
# Written floats

A float is written with the fewest digits that read back. Magnitudes from `1e-5` up to, but not
including, `1e16` are written positionally and always show a decimal point; all others are written
with an exponent, whose sign is always shown. Reading takes any decimal literal to the nearest
float.
-/

namespace PathQuery.Decimal

open Binary

/-- The decimal digits of a number without the zeros at its end, and how many zeros those were. -/
def significant (n : Nat) : List Char × Nat :=
  let digits := (Nat.toDigits 10 n).reverse
  ((digits.dropWhile (· == '0')).reverse, (digits.takeWhile (· == '0')).length)

/-- The digits with a point after the first `whole` of them. -/
def pointed (digits : List Char) (whole : Nat) : List Char :=
  if digits.length ≤ whole then
    digits ++ List.replicate (whole - digits.length) '0' ++ ['.', '0']
  else digits.take whole ++ '.' :: digits.drop whole

/-- Digits `d₁ d₂ d₃ …` standing for `d₁.d₂d₃… * 10 ^ exponent`. -/
def layout (digits : List Char) (exponent : Int) : List Char :=
  if 0 ≤ exponent ∧ exponent < 16 then pointed digits (exponent.toNat + 1)
  else if -5 ≤ exponent ∧ exponent < 0 then
    '0' :: '.' :: List.replicate (-exponent - 1).toNat '0' ++ digits
  else
    let mantissa := match digits with
      | first :: second :: rest => first :: '.' :: second :: rest
      | short => short
    mantissa ++ 'e' :: (if exponent < 0 then '-' else '+') :: Nat.toDigits 10 exponent.natAbs

def magnitudeText (mantissa : Nat) (exponent : Int) : List Char :=
  if mantissa = 0 then ['0', '.', '0'] else
    let decimal := shortest mantissa exponent
    let (digits, zeros) := significant decimal.digits
    layout digits (decimal.exponent + zeros + digits.length - 1)

/-- The text of a float. Infinities and the undefined number have names of their own. -/
def text (x : Float) : String :=
  match parts x with
  | .notANumber => "NaN"
  | .infinite negative => if negative then "-inf" else "inf"
  | .finite negative mantissa exponent =>
    String.ofList ((if negative then ['-'] else []) ++ magnitudeText mantissa exponent)

def digitsValue (digits : List Char) : Nat :=
  digits.foldl (fun n c => 10 * n + (c.toNat - '0'.toNat)) 0

/-- An optional sign, and what follows it. -/
def splitSign : List Char → Bool × List Char
  | '-' :: rest => (true, rest)
  | '+' :: rest => (false, rest)
  | rest => (false, rest)

/-- The exponent behind a mantissa: nothing at all, or the letter and a signed number. -/
def readExponent? : List Char → Option Int
  | [] => some 0
  | c :: rest =>
    if c == 'e' || c == 'E' then
      let (negative, digits) := splitSign rest
      if digits.isEmpty || !digits.all Char.isDigit then none
      else some (if negative then -(digitsValue digits : Int) else digitsValue digits)
    else none

/-- The float nearest to a decimal literal; at least one digit is needed, on either side of the
point. -/
def read? (literal : String) : Option Float :=
  let (negative, rest) := splitSign literal.toList
  match String.ofList rest |>.toLower with
  | "nan" => some (0 / 0)
  | "inf" | "infinity" => some (if negative then -1 / 0 else 1 / 0)
  | _ =>
    let whole := rest.takeWhile Char.isDigit
    let (fraction, tail) := match rest.dropWhile Char.isDigit with
      | '.' :: more => (more.takeWhile Char.isDigit, more.dropWhile Char.isDigit)
      | more => ([], more)
    if whole.isEmpty && fraction.isEmpty then none
    else (readExponent? tail).map fun exponent =>
      ofDecimal negative (digitsValue (whole ++ fraction)) (exponent - fraction.length)

end PathQuery.Decimal
