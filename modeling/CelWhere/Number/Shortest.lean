import CelWhere.Number.Binary64

/-! # Shortest decimal texts of doubles

A double is written with the fewest digits that read back as the same double, and of those texts the
one nearest to it. Decimal exponents from -4 to 15 are written positionally. -/

namespace CelWhere.Binary64

/-- A positive double as the centre of an interval of reals that round to it, all over one
denominator. -/
structure RoundingInterval where
  /-- The double itself. -/
  centre : Nat
  /-- The distance to the lower end. -/
  below : Nat
  /-- The distance to the upper end. -/
  above : Nat
  /-- The common denominator. -/
  denominator : Nat
  /-- Whether the two ends belong to the interval. -/
  closed : Bool
  deriving Repr

/-- The interval of reals that round to `significand * 2 ^ exponent`. -/
def roundingInterval (significand : Nat) (exponent : Int) : RoundingInterval :=
  let scale := if exponent < 0 then 1 else twoTo exponent.natAbs
  let denominator := if exponent < 0 then 4 * twoTo exponent.natAbs else 4
  { centre := 4 * significand * scale
    below := if significand = twoTo 52 && minExponent < exponent then scale else 2 * scale
    above := 2 * scale
    denominator := denominator
    closed := significand % 2 = 0 }

/-- Whether `numerator / denominator` lies in an interval. -/
def RoundingInterval.contains (interval : RoundingInterval) (numerator denominator : Nat) : Bool :=
  let point := numerator * interval.denominator
  let low := (interval.centre - interval.below) * denominator
  let high := (interval.centre + interval.above) * denominator
  if interval.closed then low ≤ point && point ≤ high else low < point && point < high

/-- The number of decimal places before the first significant digit of a number below one, at most
`fuel`. -/
def leadingZeros : Nat → Nat → Nat → Nat
  | 0, _, _ => 0
  | fuel + 1, numerator, denominator =>
    if denominator ≤ numerator * 10 then 0 else leadingZeros fuel (numerator * 10) denominator + 1

/-- The place of the decimal point: the number is `0.d₁d₂… * 10 ^ place` with `d₁` not zero. -/
def pointPlace (numerator denominator : Nat) : Int :=
  if denominator ≤ numerator then (Integer.natDigits (numerator / denominator)).length
  else -(leadingZeros 400 numerator denominator : Int)

/-- The multiple of `10 ^ (place - count)` nearest to the centre among the two next to it that lie
in the interval, counted in these units; an exact tie goes to the even one. -/
def nearestOnGrid? (interval : RoundingInterval) (place : Int) (count : Nat) : Option Nat :=
  let power : Int := place - count
  let stepTop := if power < 0 then 1 else tenTo power.natAbs
  let stepBottom := if power < 0 then tenTo power.natAbs else 1
  let top := interval.centre * stepBottom
  let bottom := interval.denominator * stepTop
  let lower := top / bottom
  let upper := lower + 1
  let lowerFits := interval.contains (lower * stepTop) stepBottom
  let upperFits := interval.contains (upper * stepTop) stepBottom
  let twice := 2 * (top % bottom)
  if lowerFits && upperFits then
    some (if twice < bottom || (twice == bottom && lower % 2 == 0) then lower else upper)
  else if lowerFits then some lower
  else if upperFits then some upper
  else none

/-- The shortest digits of a positive double, tried from `count` digits on; the fuel bounds the
tries. -/
def shortestFrom (interval : RoundingInterval) (place : Int) : Nat → Nat → Nat
  | 0, _ => 0
  | fuel + 1, count =>
    match nearestOnGrid? interval place count with
    | some digits => digits * tenTo (17 - count)
    | none => shortestFrom interval place fuel (count + 1)

/-- Drops the trailing zeros of a digit text. -/
def dropTrailingZeros (digits : List Char) : List Char :=
  (digits.reverse.dropWhile (· = '0')).reverse

/-- The significant digits of a positive double and the place of its decimal point. -/
def shortestDigits (significand : Nat) (exponent : Int) : List Char × Int :=
  let interval := roundingInterval significand exponent
  let place := pointPlace interval.centre interval.denominator
  let value := shortestFrom interval place 17 1
  let digits := Integer.natDigits value
  -- A value rounded up to the next power of ten has one digit more.
  (dropTrailingZeros digits, place + ((digits.length : Int) - 17))

/-- The exponent of a decimal with its sign and at least two digits. -/
def exponentText (exponent : Int) : List Char :=
  let digits := Integer.natDigits exponent.natAbs
  (if exponent < 0 then '-' else '+') :: (if digits.length < 2 then '0' :: digits else digits)

/-- Digits with a decimal point at a place, positionally or with an exponent. -/
def layout (digits : List Char) (place : Int) : List Char :=
  if -4 < place && place ≤ 16 then
    if place ≤ 0 then '0' :: '.' :: List.replicate place.natAbs '0' ++ digits
    else
      let count := place.toNat
      if digits.length ≤ count then digits ++ List.replicate
        (count - digits.length) '0' ++ ['.', '0']
      else digits.take count ++ '.' :: digits.drop count
  else
    let fraction := digits.drop 1
    digits.take 1 ++ (if fraction.isEmpty then [] else '.' :: fraction) ++
      'e' :: exponentText (place - 1)

/-- The shortest decimal text of a double. -/
def shortest : Binary64 → String
  | .finite negative significand exponent =>
    let body :=
      if significand = 0 then ['0', '.', '0']
      else
        let (digits, place) := shortestDigits significand exponent
        layout digits place
    String.ofList (if negative then '-' :: body else body)
  | .infinite negative => if negative then "-inf" else "inf"
  | .nan _ => "nan"

end CelWhere.Binary64
