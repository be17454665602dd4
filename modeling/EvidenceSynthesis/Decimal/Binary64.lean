/-!
# Finite binary64 numbers

A finite number of the binary64 format is a sign, a significand below `2 ^ 53`
and a binary exponent, in the canonical form in which the exponent is as small as
the format allows.  The two zeros are different numbers of the type.

Every operation computes the exact rational result first and rounds it once, to
the nearest number, a tie to the even significand.  A result beyond the format
is `none`.
-/

namespace EvidenceSynthesis.Decimal

/-- The greatest of 53 bits, `2 ^ 52`. -/
def hiddenBit : Nat := 0x10000000000000

/-- Significands are below this bound, `2 ^ 53`. -/
def significandBound : Nat := 0x20000000000000

/-- The least binary exponent. -/
def minExponent : Int := -1074

/-- The greatest binary exponent. -/
def maxExponent : Int := 971

/-- Whether significand and exponent are the canonical form of their value. -/
def IsCanonical (significand : Nat) (exponent : Int) : Prop :=
  significand < significandBound ∧ minExponent ≤ exponent ∧ exponent ≤ maxExponent ∧
    (significand < hiddenBit → exponent = minExponent)

instance (significand : Nat) (exponent : Int) : Decidable (IsCanonical significand exponent) :=
  inferInstanceAs (Decidable (_ ∧ _ ∧ _ ∧ (_ → _)))

/-- The number `± significand * 2 ^ exponent` of the binary64 format. -/
structure Binary64 where
  negative : Bool
  significand : Nat
  exponent : Int
  canonical : IsCanonical significand exponent
  deriving DecidableEq, Repr

/-- A non-negative rational number, as numerator and denominator. -/
structure Ratio where
  num : Nat
  den : Nat
  deriving Repr, DecidableEq

namespace Ratio

/-- The ratio times `2 ^ exponent`. -/
def scaleBinary (r : Ratio) (exponent : Int) : Ratio :=
  match exponent with
  | .ofNat k => ⟨r.num * Nat.pow 2 k, r.den⟩
  | .negSucc k => ⟨r.num, r.den * Nat.pow 2 (k + 1)⟩

/-- The ratio times `10 ^ exponent`. -/
def scaleDecimal (r : Ratio) (exponent : Int) : Ratio :=
  match exponent with
  | .ofNat k => ⟨r.num * Nat.pow 10 k, r.den⟩
  | .negSucc k => ⟨r.num, r.den * Nat.pow 10 (k + 1)⟩

/-- The nearest natural number; a half goes to the even neighbour. -/
def round (r : Ratio) : Nat :=
  let down := r.num / r.den
  let rest := 2 * (r.num % r.den)
  if rest < r.den then down
  else if r.den < rest then down + 1
  else down + down % 2

/-- The order of two ratios with positive denominators. -/
def compare (r s : Ratio) : Ordering :=
  Ord.compare (r.num * s.den) (s.num * r.den)

end Ratio

namespace Binary64

/-- The number with this significand and exponent, if that is a canonical form. -/
def ofParts? (negative : Bool) (significand : Nat) (exponent : Int) : Option Binary64 :=
  if h : IsCanonical significand exponent then
    some ⟨negative, significand, exponent, h⟩
  else
    none

/-- Zero with a sign. -/
def zero (negative : Bool) : Binary64 :=
  ⟨negative, 0, minExponent, by decide⟩

/-- One. -/
def one : Binary64 :=
  ⟨false, hiddenBit, -52, by decide⟩

/-- Whether the number is one of the two zeros. -/
def isZero (x : Binary64) : Bool :=
  x.significand == 0

/-- Whether two numbers have the same value: as numbers of the type, or as zeros. -/
def sameValue (x y : Binary64) : Bool :=
  x == y || (x.isZero && y.isZero)

/-- The size of the number, without its sign. -/
def magnitude (x : Binary64) : Ratio :=
  Ratio.scaleBinary ⟨x.significand, 1⟩ x.exponent

/-- The numerator of the number with its sign, over the denominator of its size. -/
def signedNum (x : Binary64) : Int :=
  if x.negative then -(x.magnitude.num : Int) else x.magnitude.num

/-- The whole part of the size of the number. -/
def wholePart (x : Binary64) : Nat :=
  x.magnitude.num / x.magnitude.den

/-- The exponent at which the significand of a positive ratio has 53 bits, or the
least one. -/
def exponentOf (r : Ratio) : Int :=
  let low : Int := (r.num.log2 : Int) - (r.den.log2 : Int) - 53
  let scaled := r.scaleBinary (-low)
  let fitted := if scaled.num / scaled.den < significandBound then low else low + 1
  max minExponent fitted

/-- The number nearest to a ratio, a tie to the even significand; `none` if it lies
beyond the greatest number. -/
def ofRatio? (negative : Bool) (r : Ratio) : Option Binary64 :=
  if r.num = 0 then
    some (zero negative)
  else
    let exponent := exponentOf r
    let significand := (r.scaleBinary (-exponent)).round
    if significand = significandBound then
      ofParts? negative hiddenBit (exponent + 1)
    else
      ofParts? negative significand exponent

/-- The number nearest to an integer. -/
def ofInt? (n : Int) : Option Binary64 :=
  ofRatio? (n < 0) ⟨n.natAbs, 1⟩

/-- The rounded sum.  A sum of zero is negative only if both numbers are negative zeros. -/
def add? (x y : Binary64) : Option Binary64 :=
  let sum := x.signedNum * y.magnitude.den + y.signedNum * x.magnitude.den
  let negative := if sum = 0 then x.negative && y.negative else sum < 0
  ofRatio? negative ⟨sum.natAbs, x.magnitude.den * y.magnitude.den⟩

/-- The rounded product. -/
def mul? (x y : Binary64) : Option Binary64 :=
  ofRatio? (x.negative != y.negative)
    ⟨x.magnitude.num * y.magnitude.num, x.magnitude.den * y.magnitude.den⟩

/-- The rounded quotient by a divisor other than zero. -/
def div? (x y : Binary64) : Option Binary64 :=
  ofRatio? (x.negative != y.negative)
    ⟨x.magnitude.num * y.magnitude.den, x.magnitude.den * y.magnitude.num⟩

/-- The number nearest to a power of ten. -/
def powerOfTen? (exponent : Nat) : Option Binary64 :=
  ofRatio? false ⟨Nat.pow 10 exponent, 1⟩

/-- The number with the other sign. -/
def neg (x : Binary64) : Binary64 :=
  { x with negative := !x.negative }

/-! ### Reading decimal numerals -/

/-- The greatest power of ten that is a number of the format. -/
def greatestPowerOfTen : Nat := 308

/-- `x` divided by `10 ^ exponent`, where at most `10 ^ 308` is divided out at once and
every quotient is rounded. -/
def downscale? (x : Binary64) (exponent : Nat) : Option Binary64 :=
  if exponent ≤ greatestPowerOfTen then
    (powerOfTen? exponent).bind x.div?
  else if x.isZero then
    some x
  else
    ((powerOfTen? greatestPowerOfTen).bind x.div?).bind fun y =>
      y.downscale? (exponent - greatestPowerOfTen)
termination_by exponent
decreasing_by simp_all [greatestPowerOfTen]; omega

/-- `x` multiplied by `10 ^ exponent`, rounded once. -/
def upscale? (x : Binary64) (exponent : Nat) : Option Binary64 :=
  if x.isZero then
    some x
  else if exponent ≤ greatestPowerOfTen then
    (powerOfTen? exponent).bind x.mul?
  else
    none

/-- The number read for `digits * 10 ^ exponent`: the digits are rounded first, then
scaled by a rounded power of ten.  Numerals of few digits are read exactly; those of
many may differ from the nearest number in the last bit. -/
def ofDecimal? (digits : Nat) (exponent : Int) : Option Binary64 :=
  (ofRatio? false ⟨digits, 1⟩).bind fun x =>
    match exponent with
    | .ofNat k => x.upscale? k
    | .negSucc k => x.downscale? (k + 1)

end Binary64

end EvidenceSynthesis.Decimal
