/-!
# Binary floating-point numbers

A number with a fraction or an exponent is kept as the nearest binary floating-point number of 64
bits, in exact integer arithmetic: a sign, a significand below 2^53 and a power of two that is at
least -1074. It is written with the fewest digits that read back as the same number.
-/

namespace Retrace.Number

/-- A floating-point number. A finite one is `significand * 2 ^ exponent` with its sign. -/
inductive Binary64 where
  | nan
  | infinity (negative : Bool)
  | finite (negative : Bool) (significand : Nat) (exponent : Int)
  deriving DecidableEq, Repr

namespace Binary64

/-- The power of two of the least positive number. -/
def leastExponent : Int := -1074

/-- The greatest power of two of a significand. -/
def greatestExponent : Int := 971

/-- The bits of a significand. -/
def precision : Nat := 53

/-- The quotient to the nearest integer; a half goes to the even neighbour. -/
def roundedQuotient (numerator denominator : Nat) : Nat :=
  let quotient := numerator / denominator
  let remainder := numerator % denominator
  if 2 * remainder < denominator then quotient
  else if denominator < 2 * remainder then quotient + 1
  else quotient + quotient % 2

/-- The fraction `numerator / denominator` divided by `2 ^ exponent`, as a fraction. -/
def scaled (numerator denominator : Nat) (exponent : Int) : Nat × Nat :=
  if exponent < 0 then (numerator * Nat.pow 2 exponent.natAbs, denominator)
  else (numerator, denominator * Nat.pow 2 exponent.natAbs)

/-- The power of two for which the fraction, divided by it, has a significand's size. -/
def exponentFor (numerator denominator : Nat) : Int :=
  let estimate := (Nat.log2 numerator : Int) - Nat.log2 denominator - precision
  let (top, bottom) := scaled numerator denominator estimate
  max leastExponent (if top / bottom < Nat.pow 2 precision then estimate else estimate + 1)

/-- The number nearest to a positive fraction. -/
def ofFraction (negative : Bool) (numerator denominator : Nat) : Binary64 :=
  let exponent := exponentFor numerator denominator
  let (top, bottom) := scaled numerator denominator exponent
  let significand := roundedQuotient top bottom
  let (significand, exponent) :=
    if significand = Nat.pow 2 precision then (Nat.pow 2 (precision - 1), exponent + 1)
    else (significand, exponent)
  if greatestExponent < exponent then .infinity negative
  else .finite negative significand exponent

/-- Decimal magnitudes with more digits before the point than this are infinite, and those with
more zeros behind it are zero. -/
def decimalRange : Int := 400

/-- The number nearest to `significand * 10 ^ exponent`. -/
def ofDecimal (negative : Bool) (significand : Nat) (exponent : Int) : Binary64 :=
  let size := ((Nat.toDigits 10 significand).length : Int) + exponent
  if significand = 0 || size < -decimalRange then .finite negative 0 leastExponent
  else if decimalRange < size then .infinity negative
  else if exponent < 0 then ofFraction negative significand (Nat.pow 10 exponent.natAbs)
  else ofFraction negative (significand * Nat.pow 10 exponent.natAbs) 1

/-- The integer part of a finite number. -/
def truncate? : Binary64 → Option Int
  | .finite negative significand exponent =>
    let magnitude :=
      if exponent < 0 then significand / Nat.pow 2 exponent.natAbs
      else significand * Nat.pow 2 exponent.natAbs
    some (if negative then -(magnitude : Int) else magnitude)
  | _ => none

/-- The number is zero, of either sign. -/
def isZero : Binary64 → Bool
  | .finite _ significand _ => significand = 0
  | _ => false

/-- The numerators of the reals that round to a positive number, over a common denominator:
the number itself and both ends of the interval. -/
structure Neighbourhood where
  below : Nat
  value : Nat
  above : Nat
  denominator : Nat

/-- The interval of a positive number; a power of two has its lower neighbour at half the
distance, unless that is the least one. -/
def neighbourhood (significand : Nat) (exponent : Int) : Neighbourhood :=
  let narrow := significand = Nat.pow 2 (precision - 1) && leastExponent < exponent
  let below := if narrow then 4 * significand - 1 else 4 * significand - 2
  let scale := if exponent < 0 then 1 else Nat.pow 2 exponent.natAbs
  { below := below * scale
    value := 4 * significand * scale
    above := (4 * significand + 2) * scale
    denominator := if exponent < 0 then 4 * Nat.pow 2 exponent.natAbs else 4 }

/-- The decimal number `digits * 10 ^ exponent`. -/
structure Decimal where
  digits : Nat
  exponent : Int
  deriving DecidableEq, Repr

/-- The decimal point's place: the least power of ten above a positive fraction. -/
def pointOf (numerator denominator : Nat) : Int :=
  if denominator ≤ numerator then ((Nat.toDigits 10 (numerator / denominator)).length : Int)
  else 1 - ((Nat.toDigits 10 ((denominator - 1) / numerator)).length : Int)

/-- The better of the two neighbours of the value on the grid of multiples of `10 ^ exponent`, if
one of them reads back. -/
def onGrid? (around : Neighbourhood) (even : Bool) (exponent : Int) : Option Decimal :=
  let up := if exponent < 0 then Nat.pow 10 exponent.natAbs else 1
  let down := if exponent < 0 then 1 else Nat.pow 10 exponent.natAbs
  let unit := around.denominator * down
  let lower := around.value * up / unit
  let upper := lower + 1
  let reads (candidate : Nat) : Bool :=
    let place := candidate * unit
    if even then around.below * up ≤ place && place ≤ around.above * up
    else around.below * up < place && place < around.above * up
  let toLower := around.value * up - lower * unit
  let toUpper := upper * unit - around.value * up
  let lowerIsNearer := toLower < toUpper || (toLower = toUpper && lower % 2 = 0)
  if reads lower && (lowerIsNearer || !reads upper) then some ⟨lower, exponent⟩
  else if reads upper then some ⟨upper, exponent⟩
  else none

/-- Seventeen digits always read back. -/
def mostDigits : Nat := 17

/-- The decimal of fewest digits that reads back as a positive number, and of those the nearest. -/
def shortest (significand : Nat) (exponent : Int) : Decimal :=
  let around := neighbourhood significand exponent
  let point := pointOf around.value around.denominator
  let found := (List.range mostDigits).findSome? fun (extra : Nat) =>
    onGrid? around (significand % 2 = 0) (point - ((extra : Int) + 1))
  found.getD ⟨around.value / around.denominator, 0⟩

/-- The least power of ten that is written with an exponent. -/
def positionalLimit : Int := 16

/-- The least power of ten that is written without an exponent. -/
def positionalLeast : Int := -4

/-- The digits of an exponent, at least two. -/
def exponentDigits (exponent : Int) : List Char :=
  let shown := Nat.toDigits 10 exponent.natAbs
  (if exponent < 0 then '-' else '+') :: (if shown.length < 2 then '0' :: shown else shown)

/-- A positive decimal: positional from `0.0001` to below `10 ^ 16`, with at least one digit on
both sides of the point, and else with an exponent of at least two digits. -/
def writeDecimal (decimal : Decimal) : List Char :=
  let all := Nat.toDigits 10 decimal.digits
  let power := decimal.exponent + all.length - 1
  let shown := (all.reverse.dropWhile (· = '0')).reverse
  if positionalLeast ≤ power && power < positionalLimit then
    if power < 0 then '0' :: '.' :: List.replicate (power.natAbs - 1) '0' ++ shown
    else
      let whole := shown.take (power.natAbs + 1)
      let fraction := shown.drop (power.natAbs + 1)
      whole ++ List.replicate (power.natAbs + 1 - whole.length) '0' ++
        '.' :: (if fraction.isEmpty then ['0'] else fraction)
  else
    let tail := shown.drop 1
    shown.take 1 ++ (if tail.isEmpty then [] else '.' :: tail) ++ 'e' :: exponentDigits power

/-- The text of a number between a sign and the given words for the exceptional numbers. -/
def write (nanWord infinityWord : String) : Binary64 → List Char
  | .nan => nanWord.toList
  | .infinity negative => (if negative then ['-'] else []) ++ infinityWord.toList
  | .finite negative significand exponent =>
    (if negative then ['-'] else []) ++
      (if significand = 0 then ['0', '.', '0'] else writeDecimal (shortest significand exponent))

end Binary64

end Retrace.Number
