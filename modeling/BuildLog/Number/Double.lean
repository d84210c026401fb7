import BuildLog.Text.Basic

/-!
# Double-precision numbers

Numbers with a fraction are held to 53 binary digits, like all data that passes through files.

* `Double`: a finite number, an infinity, or no number at all;
* `Double.nearest`: the double that is nearest to a quotient; of two that are equally near, the one
  with the even significand;
* `Double.ofDecimal`: the double that is nearest to a decimal.

All arithmetic is exact, on natural numbers.
-/

namespace BuildLog

/-- A double-precision number. -/
inductive Double where
  /-- Not a number. -/
  | nan
  /-- Beyond all finite numbers. -/
  | infinite (negative : Bool)
  /-- The number `± significand * 2 ^ exponent`. -/
  | finite (negative : Bool) (significand : Nat) (exponent : Int)
  deriving DecidableEq

namespace Double

/-! ## Rounding quotients -/

/-- The natural number that is nearest to a quotient, the even one of two. -/
def roundHalfEven (numerator denominator : Nat) : Nat :=
  let quotient := numerator / denominator
  let remainder := numerator % denominator
  if 2 * remainder < denominator then quotient
  else if denominator < 2 * remainder then quotient + 1
  else quotient + quotient % 2

/-- The quotient of two numbers and a power of a base, as numerator and denominator. -/
def scaled (base numerator denominator : Nat) (power : Int) : Nat × Nat :=
  if 0 ≤ power then (numerator, denominator * Nat.pow base power.toNat)
  else (numerator * Nat.pow base (-power).toNat, denominator)

/-- The largest `n` with `2 ^ n` at most the quotient of two positive numbers. -/
def binaryMagnitude (numerator denominator : Nat) : Int :=
  let guess : Int := (numerator.log2 : Int) - denominator.log2
  let (top, bottom) := scaled 2 numerator denominator guess
  if bottom ≤ top then guess else guess - 1

/-- The number of binary digits of a significand. -/
def precision : Nat := 53

/-- The smallest significand with all binary digits. -/
def leastNormal : Nat := Nat.pow 2 (precision - 1)

/-- The exponent of the smallest positive double. -/
def minExponent : Int := -1074

/-- The exponent of the largest finite double. -/
def maxExponent : Int := 971

/-- Zero, with a sign. -/
def zero (negative : Bool) : Double :=
  finite negative 0 minExponent

/-- The double that is nearest to a quotient of natural numbers, with the given sign. -/
def nearest (negative : Bool) (numerator denominator : Nat) : Double :=
  if numerator = 0 then zero negative
  else
    let exponent := max (binaryMagnitude numerator denominator - 52) minExponent
    let (top, bottom) := scaled 2 numerator denominator exponent
    let significand := roundHalfEven top bottom
    if significand = 2 * leastNormal then
      if exponent = maxExponent then infinite negative
      else finite negative leastNormal (exponent + 1)
    else if maxExponent < exponent then infinite negative
    else finite negative significand exponent

/-- The double that is nearest to `± digits * 10 ^ exponent`. Exponents that lead beyond all doubles
are not worked out. -/
def ofDecimal (negative : Bool) (digits : Nat) (exponent : Int) : Double :=
  let magnitude := exponent + (Text.ofNat digits).length
  if digits = 0 then zero negative
  else if 310 < magnitude then infinite negative
  else if magnitude < -330 then zero negative
  else
    let (top, bottom) := scaled 10 digits 1 (-exponent)
    nearest negative top bottom

/-! ## Whole numbers -/

/-- The whole number that a double is, if it is one. -/
def toInt? : Double → Option Int
  | finite negative significand exponent =>
    let (top, bottom) := scaled 2 significand 1 (-exponent)
    if top % bottom = 0 then
      let magnitude : Int := (top / bottom : Nat)
      some (if negative then -magnitude else magnitude)
    else none
  | _ => none

end Double
end BuildLog
