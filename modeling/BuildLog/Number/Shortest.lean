import BuildLog.Number.Double

/-!
# The shortest decimal of a double

A double is written with the fewest digits that are read back as the same double; of several decimals
with that many digits, the nearest.

* `Double.shortest`: those digits, and the power of ten they are multiplied with;
* `Double.text`: the written form. Magnitudes from `10 ^ -4` to below `10 ^ 16` are written with a point
  at its place, all others with an exponent of at least two digits.
-/

namespace BuildLog.Double

/-! ## Choosing the digits -/

/-- The reals that are rounded to one double, as numbers over a common denominator: the double, its
lower end and its upper end, and whether the ends belong to it. -/
structure Interval where
  value : Nat
  low : Nat
  high : Nat
  denominator : Nat
  closed : Bool

/-- The interval of a double. Below a power of two the doubles are twice as dense. -/
def interval (significand : Nat) (exponent : Int) : Interval :=
  let unit := Nat.pow 2 exponent.toNat
  let narrow := significand == leastNormal && minExponent < exponent
  { value := 4 * significand * unit
    low := (4 * significand - if narrow then 1 else 2) * unit
    high := (4 * significand + 2) * unit
    denominator := 4 * Nat.pow 2 (-exponent).toNat
    closed := significand % 2 == 0 }

/-- Whether `digits * 10 ^ power` lies in an interval. -/
def Interval.holds (range : Interval) (digits : Nat) (power : Int) : Bool :=
  let top := digits * Nat.pow 10 power.toNat * range.denominator
  let scale := Nat.pow 10 (-power).toNat
  if range.closed then range.low * scale ≤ top && top ≤ range.high * scale
  else range.low * scale < top && top < range.high * scale

/-- The decimal with the given last place that stands for a double, if there is one: one of the two
neighbours of the double on that grid, the nearer one if both do. -/
def onGrid? (range : Interval) (power : Int) : Option (Nat × Int) :=
  let (top, bottom) := scaled 10 range.value range.denominator power
  let below := top / bottom
  let nearer := roundHalfEven top bottom
  let other := if nearer = below then below + 1 else below
  if range.holds nearer power then some (nearer, power)
  else if range.holds other power then some (other, power)
  else none

/-- The largest `n` with `10 ^ n` at most a quotient, tried from `10 ^ guess` downwards. -/
def decimalMagnitude (numerator denominator : Nat) : Nat → Int → Int
  | 0, guess => guess
  | steps + 1, guess =>
    let (top, bottom) := scaled 10 numerator denominator guess
    if bottom ≤ top then guess else decimalMagnitude numerator denominator steps (guess - 1)

/-- The first grid that holds a decimal of the double, tried from the coarsest to finer ones. -/
def firstGrid (range : Interval) : Nat → Int → Nat × Int
  | 0, power => (range.value / range.denominator, power)
  | steps + 1, power =>
    match onGrid? range power with
    | some found => found
    | none => firstGrid range steps (power - 1)

/-- A decimal without zeros at its end. -/
def withoutZeros : Nat → Nat → Int → Nat × Int
  | 0, digits, power => (digits, power)
  | steps + 1, digits, power =>
    if digits ≠ 0 && digits % 10 = 0 then withoutZeros steps (digits / 10) (power + 1)
    else (digits, power)

/-- The shortest decimal of a positive double: its digits and the power of ten behind them. -/
def shortest (significand : Nat) (exponent : Int) : Nat × Int :=
  let range := interval significand exponent
  let length := (Text.ofNat (range.value / range.denominator)).length
  let magnitude := decimalMagnitude range.value range.denominator 400 length
  let (digits, power) := firstGrid range 20 magnitude
  withoutZeros 20 digits power

/-! ## Writing the digits -/

/-- The smallest and the largest power of ten of a first digit that is written without an exponent. -/
def positionalRange : Int × Int := (-4, 15)

/-- Digits with a point at its place; at least one digit stands on both sides of it. -/
def positional (digits : Text) (power : Int) : Text :=
  if 0 ≤ power then digits ++ List.replicate power.toNat '0' ++ ['.', '0']
  else
    let places := (-power).toNat
    let padded := List.replicate (places + 1 - digits.length) '0' ++ digits
    let whole := padded.length - places
    padded.take whole ++ '.' :: padded.drop whole

/-- Digits with an exponent: a point behind the first digit, if there are more, and an exponent with a
sign and at least two digits. -/
def exponential (digits : Text) (exponent : Int) : Text :=
  let mantissa := if digits.length ≤ 1 then digits else digits.take 1 ++ '.' :: digits.drop 1
  let places := Text.ofNat exponent.natAbs
  let padded := List.replicate (2 - places.length) '0' ++ places
  mantissa ++ 'e' :: (if exponent < 0 then '-' else '+') :: padded

/-- The magnitude of a finite double, written out. -/
def magnitudeText (significand : Nat) (exponent : Int) : Text :=
  if significand = 0 then ['0', '.', '0']
  else
    let (number, power) := shortest significand exponent
    let digits := Text.ofNat number
    let leading := power + digits.length - 1
    if positionalRange.1 ≤ leading && leading ≤ positionalRange.2 then positional digits power
    else exponential digits leading

/-- The written form of a double. -/
def text : Double → Text
  | nan => "nan".toList
  | infinite negative => (if negative then "-inf" else "inf").toList
  | finite negative significand exponent =>
    if negative then '-' :: magnitudeText significand exponent
    else magnitudeText significand exponent

end BuildLog.Double
