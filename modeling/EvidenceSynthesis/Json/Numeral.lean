import EvidenceSynthesis.Json.Value
import EvidenceSynthesis.Word

/-!
# JSON numerals

A numeral is read from its characters without a loss: sign, whole digits, fraction
and exponent.  Its value is an integer if it has neither fraction nor exponent and
fits a 64-bit word, signed or unsigned; any other numeral is a binary64 number, or
nothing if it lies beyond them.

The significand of a binary64 numeral holds the leading digits that fit 64 bits.
Later whole digits only count towards the exponent, and later digits of the fraction
are passed over.
-/

namespace EvidenceSynthesis.Json

open EvidenceSynthesis.Decimal (Binary64)

/-- A number as it is written. -/
structure Numeral where
  negative : Bool
  whole : List Char
  fraction : Option (List Char)
  exponent : Option Int
  deriving Repr, DecidableEq

namespace Numeral

/-- The value of a decimal digit. -/
def digitValue (c : Char) : Nat :=
  c.toNat - '0'.toNat

/-- The number that decimal digits write. -/
def digitsValue (digits : List Char) : Nat :=
  digits.foldl (fun n c => 10 * n + digitValue c) 0

/-! ### Reading -/

/-- The sign in front. -/
def takeSign : List Char → Bool × List Char
  | '-' :: rest => (true, rest)
  | chars => (false, chars)

/-- Digits of which there is at least one. -/
def takeDigits? (chars : List Char) : Option (List Char × List Char) :=
  let (digits, rest) := chars.span Char.isDigit
  if digits.isEmpty then none else some (digits, rest)

/-- The whole digits: a zero alone, or digits that start with another one. -/
def takeWhole? (chars : List Char) : Option (List Char × List Char) :=
  (takeDigits? chars).bind fun (digits, rest) =>
    if digits.head? = some '0' ∧ digits.length ≠ 1 then none else some (digits, rest)

/-- A point and digits, if there is a point. -/
def takeFraction? : List Char → Option (Option (List Char) × List Char)
  | '.' :: rest => (takeDigits? rest).map fun (digits, rest) => (some digits, rest)
  | chars => some (none, chars)

/-- The digits of an exponent, with or without a sign. -/
def takeExponentDigits? : List Char → Option (Int × List Char)
  | '-' :: rest => (takeDigits? rest).map fun (digits, rest) => (-(digitsValue digits : Int), rest)
  | '+' :: rest => (takeDigits? rest).map fun (digits, rest) => ((digitsValue digits : Int), rest)
  | chars => (takeDigits? chars).map fun (digits, rest) => ((digitsValue digits : Int), rest)

/-- A mark and digits, if there is a mark. -/
def takeExponent? : List Char → Option (Option Int × List Char)
  | 'e' :: rest | 'E' :: rest =>
    (takeExponentDigits? rest).map fun (exponent, rest) => (some exponent, rest)
  | chars => some (none, chars)

/-- The numeral that all of the characters write. -/
def ofChars? (chars : List Char) : Option Numeral := do
  let (negative, rest) := takeSign chars
  let (whole, rest) ← takeWhole? rest
  let (fraction, rest) ← takeFraction? rest
  let (exponent, rest) ← takeExponent? rest
  if rest.isEmpty then some ⟨negative, whole, fraction, exponent⟩ else none

/-! ### Values -/

/-- Appends a whole digit to a significand, which is followed by `dropped` places. -/
def appendWhole (state : Nat × Nat) (c : Char) : Nat × Nat :=
  let longer := 10 * state.1 + digitValue c
  if state.2 = 0 ∧ longer < Word.bound64 then (longer, 0) else (state.1, state.2 + 1)

/-- Appends digits of a fraction to a significand while they fit; also says how many
did. -/
def appendFraction (significand places : Nat) : List Char → Nat × Nat
  | [] => (significand, places)
  | c :: rest =>
    let longer := 10 * significand + digitValue c
    if longer < Word.bound64 then appendFraction longer (places + 1) rest else (significand, places)

/-- The leading digits as a word, and the power of ten that belongs to them. -/
def significand (numeral : Numeral) : Nat × Int :=
  let (whole, dropped) := numeral.whole.foldl appendWhole (0, 0)
  let (digits, places) := appendFraction whole 0 (numeral.fraction.getD [])
  (digits, (dropped : Int) - places + numeral.exponent.getD 0)

/-- The binary64 number that the numeral is read as. -/
def float? (numeral : Numeral) : Option Binary64 :=
  let (digits, exponent) := numeral.significand
  (Binary64.ofDecimal? digits exponent).map fun x =>
    if numeral.negative then x.neg else x

/-- The integer that the numeral writes, if it is a word: unsigned, or signed and
below zero. -/
def integer? (numeral : Numeral) : Option Int :=
  let size := digitsValue numeral.whole
  if numeral.fraction.isSome ∨ numeral.exponent.isSome then none
  else if numeral.negative then
    if size ≠ 0 ∧ size ≤ Word.bound63 then some (-size) else none
  else if size < Word.bound64 then some size
  else none

/-- The value of a numeral. -/
def value? (numeral : Numeral) : Option Value :=
  match numeral.integer? with
  | some n => some (.integer n)
  | none => numeral.float?.map .float

end Numeral

end EvidenceSynthesis.Json
