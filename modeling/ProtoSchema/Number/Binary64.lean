import ProtoSchema.Number.Integer

/-!
# Floating-point values

Double-precision values as their 64 bits, the reading of decimal literals with correct rounding, and
the shortest notation that reads back. All of it is exact arithmetic on natural numbers. A literal
is rounded to the nearest value and a tie goes to the even significand. The shortest notation has
the fewest digits that identify the value and is the nearest one to it with that many digits.
-/

namespace ProtoSchema

/-- A double-precision floating-point value, given by its bits. -/
structure Binary64 where
  bits : UInt64
  deriving DecidableEq

/-- A decimal number: a signed integer times a power of ten. -/
structure Decimal where
  negative : Bool
  coefficient : Nat
  exponent : Int
  deriving DecidableEq

namespace Decimal

/-- A run of ASCII digits and what follows it. -/
def splitDigits (text : Text) : Text × Text :=
  (text.takeWhile CodePoint.isAsciiDigit, text.dropWhile CodePoint.isAsciiDigit)

/-- The value of a run of digits, zero for an empty one. -/
def digitsValue (digits : Text) : Nat :=
  (Integer.ofDigitsFrom 10 0 digits).getD 0

/-- The exponent part of a literal, which may be absent. -/
def readExponent? : Text → Option Int
  | [] => some 0
  | c :: rest =>
      if c = 'e' || c = 'E' then
        let (negative, digits) := Integer.splitSign rest
        (Integer.ofDigits? 10 digits).map (Integer.signed negative)
      else none

/-- The fraction part of a literal, which may be absent, and what follows it. -/
def splitFraction : Text → Text × Text
  | [] => ([], [])
  | c :: rest => if c = '.' then splitDigits rest else ([], c :: rest)

/-- Read a decimal literal: an optional sign, digits with an optional point among them, and an
optional exponent. Digits of any decimal system are accepted. -/
def ofLiteral? (spelling : Text) : Option Decimal :=
  let (negative, body) := Integer.splitSign (Integer.withAsciiDigits spelling)
  let (whole, afterWhole) := splitDigits body
  let (fraction, afterFraction) := splitFraction afterWhole
  if whole.isEmpty && fraction.isEmpty then none
  else
    (readExponent? afterFraction).map fun exponent =>
      ⟨negative, digitsValue (whole ++ fraction), exponent - fraction.length⟩

end Decimal

namespace Binary64

/-- The bits of positive infinity: the greatest exponent and no fraction. -/
def infinityBits : Nat := 0x7FF0000000000000

/-- The weight of the sign bit. -/
def signBit : Nat := 0x8000000000000000

/-- The weight of the exponent field, which is that of the leading bit of a normal significand. -/
def exponentUnit : Nat := 0x10000000000000

/-- The value with this magnitude and sign. -/
def ofMagnitude (negative : Bool) (magnitude : Nat) : Binary64 :=
  ⟨(if negative then signBit + magnitude else magnitude).toUInt64⟩

/-- Positive or negative infinity. -/
def infinity (negative : Bool) : Binary64 :=
  ofMagnitude negative infinityBits

/-- A value that is no number. -/
def notANumber : Binary64 :=
  ofMagnitude false 0x7FF8000000000000

/-- The sign bit. -/
def isNegative (value : Binary64) : Bool :=
  signBit ≤ value.bits.toNat

/-- The bits without the sign. -/
def magnitude (value : Binary64) : Nat :=
  value.bits.toNat % signBit

/-- The value is no number. -/
def isNaN (value : Binary64) : Bool :=
  infinityBits < value.magnitude

/-- A quotient rounded to the nearest integer, a tie to the even one. -/
def divRound (numerator denominator : Nat) : Nat :=
  let quotient := numerator / denominator
  let twice := 2 * (numerator % denominator)
  if denominator < twice || (twice = denominator && quotient % 2 = 1) then quotient + 1
  else quotient

/-- `numerator / denominator / 2 ^ exponent` as a numerator and a denominator. -/
def scaleDown (numerator denominator : Nat) (exponent : Int) : Nat × Nat :=
  (numerator * Nat.pow 2 (-exponent).toNat, denominator * Nat.pow 2 exponent.toNat)

/-- The exponent of the last significand bit of values near a positive quotient. -/
def unitExponent (numerator denominator : Nat) : Int :=
  -- Too great by one at most, since both logarithms are rounded down.
  let guess : Int := (numerator.log2 : Int) - denominator.log2 - 52
  let (scaled, unit) := scaleDown numerator denominator guess
  max (-1074) (if scaled < exponentUnit * unit then guess - 1 else guess)

/-- The magnitude nearest to a positive quotient. A significand that rounds up to the next power of
two carries into the exponent field by itself. -/
def nearestMagnitude (numerator denominator : Nat) : Nat :=
  let exponent := unitExponent numerator denominator
  let (scaled, unit) := scaleDown numerator denominator exponent
  min infinityBits ((exponent + 1074).toNat * exponentUnit + divRound scaled unit)

/-- The value nearest to a decimal number. Powers of ten far outside the range are not computed. -/
def ofDecimal (decimal : Decimal) : Binary64 :=
  let length : Int := (Nat.toDigits 10 decimal.coefficient).length
  if decimal.coefficient = 0 || length + decimal.exponent < -400 then
    ofMagnitude decimal.negative 0
  else if 400 < length + decimal.exponent then infinity decimal.negative
  else
    ofMagnitude decimal.negative
      (nearestMagnitude (decimal.coefficient * Nat.pow 10 decimal.exponent.toNat)
        (Nat.pow 10 (-decimal.exponent).toNat))

/-- The significand and the exponent of its last bit. -/
def decompose (magnitude : Nat) : Nat × Int :=
  let field : Nat := magnitude / exponentUnit
  let fraction : Nat := magnitude % exponentUnit
  if field = 0 then (fraction, -1074) else (fraction + exponentUnit, (field : Int) - 1075)

/-- A positive value and the ends of the interval of reals that round to it, as numerators over one
denominator, and whether the ends belong to it. -/
structure Neighbourhood where
  value : Nat
  low : Nat
  high : Nat
  denominator : Nat
  closed : Bool

/-- The neighbourhood of a finite positive magnitude. The lower end is nearer where the exponent
changes. -/
def neighbourhood (magnitude : Nat) : Neighbourhood :=
  let (significand, exponent) := decompose magnitude
  let below := if significand = exponentUnit && -1074 < exponent then 1 else 2
  -- Everything in quarters of the last bit, of which the ends are whole multiples.
  let factor := Nat.pow 2 (exponent - 2).toNat
  { value := 4 * significand * factor
    low := (4 * significand - below) * factor
    high := (4 * significand + 2) * factor
    denominator := Nat.pow 2 (2 - exponent).toNat
    closed := significand % 2 = 0 }

/-- How many digits stand before the point of a positive quotient, negative for zeros after it. -/
def pointPosition (numerator denominator : Nat) : Int :=
  if denominator ≤ numerator then (Nat.toDigits 10 (numerator / denominator)).length
  else
    let ceiling := (denominator + numerator - 1) / numerator
    1 - ((Nat.toDigits 10 (ceiling - 1)).length : Int)

/-- The multiple of `10 ^ exponent` next to the value that lies in the neighbourhood, as its factor.
The nearer of two is taken and the even one of a tie. -/
def onGrid? (near : Neighbourhood) (exponent : Int) : Option Nat :=
  let up := Nat.pow 10 (-exponent).toNat
  let unit := near.denominator * Nat.pow 10 exponent.toNat
  let floor := near.value * up / unit
  let within (factor : Nat) : Bool :=
    let point := factor * unit
    if near.closed then near.low * up ≤ point && point ≤ near.high * up
    else near.low * up < point && point < near.high * up
  match within floor, within (floor + 1) with
  | true, true => some (divRound (near.value * up) unit)
  | true, false => some floor
  | false, true => some (floor + 1)
  | false, false => none

/-- The first grid of at least `digits` digits with a point in the neighbourhood, tried `fuel`
times: its exponent and the factor. -/
def shortestFrom (near : Neighbourhood) (point : Int) (digits : Nat) : Nat → Nat × Int
  | 0 => (near.value, 0)
  | fuel + 1 =>
      match onGrid? near (point - digits) with
      | some factor => (factor, point - digits)
      | none => shortestFrom near point (digits + 1) fuel

/-- The digits of the shortest notation of a positive magnitude, and how many of them stand before
the point. Seventeen digits always suffice. -/
def shortest (magnitude : Nat) : List Char × Int :=
  let near := neighbourhood magnitude
  let point := pointPosition near.value near.denominator
  let (factor, exponent) := shortestFrom near point 1 17
  let digits := Nat.toDigits 10 factor
  let kept := (digits.reverse.dropWhile (· = '0')).reverse
  (kept, exponent + digits.length)

/-- The exponent part of a notation: a sign and at least two digits. -/
def exponentText (exponent : Int) : List Char :=
  let digits := Nat.toDigits 10 exponent.natAbs
  let padded := if digits.length < 2 then '0' :: digits else digits
  'e' :: (if exponent < 0 then '-' else '+') :: padded

/-- Digits with `point` of them before the point. The exponent is written out from the seventeenth
place before the point and from the fifth after it, and a whole number ends in `.0`. -/
def layOut (digits : List Char) (point : Int) : List Char :=
  if -4 < point && point ≤ 16 then
    if point ≤ 0 then '0' :: '.' :: (List.replicate (-point).toNat '0' ++ digits)
    else
      let before := point.toNat
      if digits.length ≤ before then
        digits ++ List.replicate (before - digits.length) '0' ++ ['.', '0']
      else digits.take before ++ '.' :: digits.drop before
  else
    match digits with
    | [] => []
    | [digit] => digit :: exponentText (point - 1)
    | digit :: rest => digit :: '.' :: rest ++ exponentText (point - 1)

/-- The notation of a magnitude. -/
def magnitudeText (magnitude : Nat) : List Char :=
  if infinityBits < magnitude then ['n', 'a', 'n']
  else if magnitude = infinityBits then ['i', 'n', 'f']
  else if magnitude = 0 then ['0', '.', '0']
  else
    let (digits, point) := shortest magnitude
    layOut digits point

/-- The shortest notation that reads back as the value. -/
def toText (value : Binary64) : Text :=
  let text := magnitudeText value.magnitude
  (if value.isNegative && !value.isNaN then '-' :: text else text).map CodePoint.ofChar

end Binary64

end ProtoSchema
