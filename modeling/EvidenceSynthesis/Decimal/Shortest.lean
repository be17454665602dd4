import EvidenceSynthesis.Decimal.Binary64

/-!
# Shortest decimal text

The decimal numeral written for a binary64 number is the shortest one that lies in
the interval of reals rounding to that number; of two such numerals the nearer is
taken, and of two equally near the one with the even last digit.

A numeral is laid out positionally when its leading digit stands between the fifth
place after the point and the sixteenth before it, with one zero after the point if
it is a whole number; otherwise with one digit before the point and a signed
exponent.
-/

namespace EvidenceSynthesis.Decimal

/-- The decimal number `digits * 10 ^ exponent`. -/
structure ScaledDigits where
  digits : Nat
  exponent : Int
  deriving Repr, DecidableEq

namespace Binary64

/-- The reals that round to a positive number: between `low` and `high`, with the
ends if the significand is even. -/
structure RoundingInterval where
  low : Ratio
  high : Ratio
  closed : Bool

/-- The rounding interval of a positive number.  Below a power of two the next
number is nearer. -/
def roundingInterval (x : Binary64) : RoundingInterval :=
  let narrow := x.significand = hiddenBit ∧ minExponent < x.exponent
  { low := Ratio.scaleBinary ⟨4 * x.significand - (if narrow then 1 else 2), 4⟩ x.exponent
    high := Ratio.scaleBinary ⟨4 * x.significand + 2, 4⟩ x.exponent
    closed := x.significand % 2 == 0 }

/-- Whether a ratio lies in the interval. -/
def RoundingInterval.contains (interval : RoundingInterval) (r : Ratio) : Bool :=
  let order := (interval.low.compare r, r.compare interval.high)
  if interval.closed then
    order.1 != .gt && order.2 != .gt
  else
    order.1 == .lt && order.2 == .lt

/-- The number of decimal digits of a natural number. -/
def digitCount (n : Nat) : Nat :=
  (Nat.toDigits 10 n).length

/-- The place of the leading decimal digit of a positive ratio: `e` with
`10 ^ e ≤ r < 10 ^ (e + 1)`. -/
def leadingPlace (r : Ratio) : Int :=
  if r.den ≤ r.num then
    (digitCount (r.num / r.den) : Int) - 1
  else
    -(digitCount ((r.den + r.num - 1) / r.num - 1) : Int)

/-- The numerals at step `exponent` next to a ratio that lie in the interval, the
nearest of them. -/
def nearestOnGrid (interval : RoundingInterval) (r : Ratio) (exponent : Int) :
    Option ScaledDigits :=
  let scaled := r.scaleDecimal (-exponent)
  let below := scaled.num / scaled.den
  let admits (n : Nat) := interval.contains (Ratio.scaleDecimal ⟨n, 1⟩ exponent)
  match admits below, admits (below + 1) with
  | true, true => some ⟨scaled.round, exponent⟩
  | true, false => some ⟨below, exponent⟩
  | false, true => some ⟨below + 1, exponent⟩
  | false, false => none

/-- The first hit among the grids of `count + 1` digits, `count + 2` digits, … -/
def searchGrids (interval : RoundingInterval) (r : Ratio) (place : Int) (count : Nat) :
    Nat → Option ScaledDigits
  | 0 => none
  | grids + 1 =>
    match nearestOnGrid interval r (place - count) with
    | some numeral => some numeral
    | none => searchGrids interval r place (count + 1) grids

/-- The shortest numeral in the rounding interval of a positive number. -/
def shortest (x : Binary64) : ScaledDigits :=
  (searchGrids x.roundingInterval x.magnitude (leadingPlace x.magnitude) 0 17).getD ⟨0, 0⟩

end Binary64

/-! ### Layout -/

/-- Where positional notation ends and how an exponent is written. -/
structure Layout where
  /-- The least place of a leading digit written positionally. -/
  leastPlace : Int
  /-- The greatest place of a leading digit written positionally. -/
  greatestPlace : Int
  /-- What stands between the digits and the exponent. -/
  exponentMark : Char

/-- Digits from `10 ^ -5` to `10 ^ 15` stand in their places; others have an
exponent after an `e`, always with its sign. -/
def Layout.standard : Layout := ⟨-5, 15, 'e'⟩

namespace Layout

/-- The digits without the zeros at the end, and how many those were. -/
def stripZeros (digits : List Char) : List Char × Nat :=
  let reversed := digits.reverse
  ((reversed.dropWhile (· == '0')).reverse, (reversed.takeWhile (· == '0')).length)

/-- Digits in their places, with one zero after the point for a whole number. -/
def positional (digits : List Char) (exponent : Int) : List Char :=
  match exponent with
  | .ofNat k => digits ++ List.replicate k '0' ++ ['.', '0']
  | .negSucc k =>
    let places := k + 1
    if places < digits.length then
      let whole := digits.length - places
      digits.take whole ++ '.' :: digits.drop whole
    else
      '0' :: '.' :: (List.replicate (places - digits.length) '0' ++ digits)

/-- One digit before the point, and the place of that digit as a signed exponent. -/
def scientific (layout : Layout) (digits : List Char) (place : Int) : List Char :=
  let mantissa :=
    match digits with
    | [] => []
    | [d] => [d]
    | d :: rest => d :: '.' :: rest
  let sign := if place < 0 then '-' else '+'
  mantissa ++ layout.exponentMark :: sign :: Nat.toDigits 10 place.natAbs

/-- A positive numeral in this layout. -/
def write (layout : Layout) (numeral : ScaledDigits) : List Char :=
  let (digits, zeros) := stripZeros (Nat.toDigits 10 numeral.digits)
  let exponent := numeral.exponent + zeros
  let place := exponent + digits.length - 1
  if layout.leastPlace ≤ place ∧ place ≤ layout.greatestPlace then
    positional digits exponent
  else
    layout.scientific digits place

end Layout

/-- The shortest text of a number. -/
def Binary64.text (x : Binary64) : String :=
  let size :=
    if x.isZero then ['0', '.', '0'] else Layout.standard.write x.shortest
  String.ofList (if x.negative then '-' :: size else size)

end EvidenceSynthesis.Decimal
