import BuildLog.Number.Double

/-!
# Doubles with a fixed number of places

* `Double.units`: a double in units of its last place, rounded to the nearest whole number of them, the
  even one of two;
* `Double.fixed`: a double written with that many places behind the point.

What is rounded is the double itself and not the quotient that it came from, so a quotient half-way
between two decimals goes to the side on which its double lies.
-/

namespace BuildLog.Double

/-- The magnitude of `± significand * 2 ^ exponent` in units of `10 ^ -places`. -/
def units (places significand : Nat) (exponent : Int) : Nat :=
  let (top, bottom) := scaled 2 (significand * Nat.pow 10 places) 1 (-exponent)
  roundHalfEven top bottom

/-- A number of units with a point in front of the last `places` digits. -/
def withPoint (places number : Nat) : Text :=
  let unit := Nat.pow 10 places
  let fraction := Text.ofNat (number % unit)
  Text.ofNat (number / unit) ++
    '.' :: List.replicate (places - fraction.length) '0' ++ fraction

/-- A double with the given number of places behind the point. -/
def fixed (places : Nat) : Double → Text
  | nan => "nan".toList
  | infinite negative => (if negative then "-inf" else "inf").toList
  | finite negative significand exponent =>
    let magnitude := withPoint places (units places significand exponent)
    if negative then '-' :: magnitude else magnitude

end BuildLog.Double
