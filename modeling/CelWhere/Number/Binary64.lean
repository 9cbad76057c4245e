import CelWhere.Number.Integer
import CelWhere.Number.Power

/-! # Double precision numbers

A double is a sign, a significand below 2^53 and an exponent of two; rounding takes the nearest
double, and of two equally near ones that with the even significand. Everything is exact integer
arithmetic. -/

namespace CelWhere

/-- A number of the binary format with 64 bits. -/
inductive Binary64
  /-- The number `significand * 2 ^ exponent`, negated if the flag is set. -/
  | finite (negative : Bool) (significand : Nat) (exponent : Int)
  /-- An infinity. -/
  | infinite (negative : Bool)
  /-- Not a number. -/
  | nan (negative : Bool)
  deriving DecidableEq, Repr, Inhabited

namespace Binary64

/-- The exponent of the smallest doubles. -/
def minExponent : Int := -1074

/-- The exponent of the largest doubles. -/
def maxExponent : Int := 971

/-- The quotient of `numerator / denominator` by `2 ^ exponent`, with the remainder and the divisor
used. -/
def scaledQuotient (numerator denominator : Nat) (exponent : Int) : Nat × Nat × Nat :=
  let top := if exponent < 0 then numerator <<< exponent.natAbs else numerator
  let bottom := if exponent < 0 then denominator else denominator <<< exponent.natAbs
  (top / bottom, top % bottom, bottom)

/-- The exponent at which a positive quotient has 53 significant bits, or the smallest exponent. -/
def exponentFor (numerator denominator : Nat) : Int :=
  let guess : Int := (numerator.log2 : Int) - denominator.log2 - 53
  let exponent := if (scaledQuotient numerator denominator guess).1 < twoTo 53 then guess
    else guess + 1
  if exponent < minExponent then minExponent else exponent

/-- The double nearest to `numerator / denominator`, a tie going to the even significand. -/
def ofRatio (negative : Bool) (numerator denominator : Nat) : Binary64 :=
  if numerator = 0 then .finite negative 0 minExponent
  else
    let exponent := exponentFor numerator denominator
    let (quotient, remainder, divisor) := scaledQuotient numerator denominator exponent
    let significand :=
      if divisor < 2 * remainder || (2 * remainder == divisor && quotient % 2 == 1)
        then quotient + 1
      else quotient
    let (significand, exponent) :=
      if significand = twoTo 53 then (twoTo 52, exponent + 1) else (significand, exponent)
    if maxExponent < exponent then .infinite negative else .finite negative significand exponent

/-- The 64 bits of a double. -/
def bits : Binary64 → Nat
  | .finite negative significand exponent =>
    let magnitude :=
      if significand < twoTo 52 then significand
      else ((exponent - minExponent).toNat + 1) * twoTo 52 + (significand - twoTo 52)
    (if negative then twoTo 63 else 0) + magnitude
  | .infinite negative => (if negative then twoTo 63 else 0) + 0x7ff * twoTo 52
  | .nan negative => (if negative then twoTo 63 else 0) + 0x7ff * twoTo 52 + twoTo 51

/-- The double nearest to `digits * 10 ^ exponent`. Exponents far outside the range of doubles are
answered without computing the power. -/
def ofDecimal (negative : Bool) (digits : Nat) (exponent : Int) : Binary64 :=
  let size : Int := (Integer.natDigits digits).length
  if digits = 0 then .finite negative 0 minExponent
  else if 400 < size + exponent then .infinite negative
  else if size + exponent < -400 then .finite negative 0 minExponent
  else if exponent < 0 then ofRatio negative digits (tenTo exponent.natAbs)
  else ofRatio negative (digits * tenTo exponent.natAbs) 1

/-- The double nearest to an integer, if it is not too large for one. -/
def ofInt? (value : Int) : Option Binary64 :=
  match ofRatio (value < 0) value.natAbs 1 with
  | .infinite _ => none
  | double => some double

/-- The quotient of a finite double by a positive number that is itself a double. -/
def divideBy (double : Binary64) (divisor : Nat) : Binary64 :=
  match double with
  | .finite negative significand exponent =>
    if exponent < 0 then ofRatio negative significand (divisor * twoTo exponent.natAbs)
    else ofRatio negative (significand * twoTo exponent.natAbs) divisor
  | other => other

/-! ## Reading -/

/-- Removes single underscores that stand between two digits; there is no result if one stands
elsewhere. The first argument is the character before the text. -/
def dropUnderscores : Char → List Char → Option (List Char)
  | before, [] => if before = '_' then none else some []
  | before, head :: rest =>
    if head = '_' then
      if Text.isPlainDigit before then dropUnderscores head rest else none
    else if before = '_' && !Text.isPlainDigit head then none
    else (dropUnderscores head rest).map (head :: ·)

/-- The lower-case form of a letter of ASCII. -/
def lowerAscii (c : Char) : Char :=
  if 'A' ≤ c && c ≤ 'Z' then Char.ofNat (c.toNat + 32) else c

/-- Reads the exponent part of a decimal: a letter `e`, a sign and digits, or nothing. -/
def readExponent : List Char → Option Int
  | [] => some 0
  | mark :: rest =>
    if mark = 'e' || mark = 'E' then
      let (negative, digits) := Integer.splitSign rest
      if digits.isEmpty || !digits.all Text.isPlainDigit then none
      else
        let value := Integer.ofDigits 10 (digits.map fun c => c.toNat - '0'.toNat)
        some (if negative then -(value : Int) else value)
    else none

/-- Reads an unsigned decimal: digits with an optional point among them, and an optional
exponent. -/
def readUnsigned (negative : Bool) (text : List Char) : Option Binary64 :=
  let whole := text.takeWhile Text.isPlainDigit
  let afterWhole := text.dropWhile Text.isPlainDigit
  let (fraction, afterFraction) :=
    match afterWhole with
    | '.' :: rest => (rest.takeWhile Text.isPlainDigit, rest.dropWhile Text.isPlainDigit)
    | rest => ([], rest)
  if whole.isEmpty && fraction.isEmpty then none
  else
    (readExponent afterFraction).map fun exponent =>
      let digits := Integer.ofDigits 10 ((whole ++ fraction).map fun c => c.toNat - '0'.toNat)
      ofDecimal negative digits (exponent - fraction.length)

/-- Reads the text of a double: blanks around it, a sign, then a decimal or a word for an infinity
or for no number. -/
def read? (text : List Char) : Option Binary64 :=
  (dropUnderscores ' ' (Text.strip (text.map Text.plainChar))).bind fun plain =>
    let (negative, unsigned) := Integer.splitSign plain
    let word := String.ofList (unsigned.map lowerAscii)
    if word = "inf" || word = "infinity" then some (.infinite negative)
    else if word = "nan" then some (.nan negative)
    else readUnsigned negative unsigned

end Binary64

end CelWhere
