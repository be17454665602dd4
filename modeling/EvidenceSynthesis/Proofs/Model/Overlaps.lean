import EvidenceSynthesis.Model.Corpus
import EvidenceSynthesis.Proofs.Decimal.Rounding
import Mathlib

/-!
# What an overlap weighs

Overlaps are counted with signed words of 32 bits, which go around.  An overlap is therefore the
word of a natural number (`Corpus.overlap_eq_ofNat`), and it is that number as long as the number
is below `2 ^ 31`.

The weight of a word is the square of one more than it, rounded to a binary64 number
(`Corpus.ofInt?_weightOfOverlap`).  The word before zero weighs nothing, and every other word weighs
at least one (`Corpus.one_le_weightOfOverlap_iff`).  The squares of natural numbers are far enough
apart for the weights of different numbers below `2 ^ 31` to be different
(`Corpus.weightOfOverlap_le_iff`), although the weight of a number is not its square if that has
too many bits (`Corpus.weightOfOverlap_eq_iff`).
-/

namespace EvidenceSynthesis

open Decimal (Binary64)
open Decimal.Binary64 (IsNearest significandBound_eq)

namespace Corpus

/-! ### Words of sums -/

/-- The sum of the products of two lists of numbers. -/
def product : List Nat → List Nat → Nat
  | x :: xs, y :: ys => x * y + product xs ys
  | _, _ => 0

/-- The sum of the products of two lists of numbers, over all pairs of two lists of them. -/
def productSum : List (List Nat) → List (List Nat) → Nat
  | requested :: others, present :: rest => product requested present + productSum others rest
  | _, _ => 0

/-- The product of words is the word of the product. -/
theorem dot_eq_ofNat (xs ys : List Nat) : dot xs ys = .ofNat (product xs ys) := by
  induction xs generalizing ys with
  | nil => cases ys <;> rfl
  | cons x xs ih =>
    cases ys with
    | nil => rfl
    | cons y ys => rw [dot, product, ih, Int32.ofNat_add, Int32.ofNat_mul]

/-- The overlap is the word of the sum of the products. -/
theorem overlap_eq_ofNat (requested present : List (List Nat)) :
    overlap requested present = .ofNat (productSum requested present) := by
  induction requested generalizing present with
  | nil => cases present <;> rfl
  | cons vector vectors ih =>
    cases present with
    | nil => rfl
    | cons other others => rw [overlap, productSum, ih, dot_eq_ofNat, Int32.ofNat_add]

/-- A number below `2 ^ 31` is that of its word. -/
theorem toInt_ofNat {o : Nat} (h : o < Word.bound31) : (Int32.ofNat o).toInt = o :=
  Int32.toInt_ofNat_of_lt h

/-- The word of a number is the one before zero exactly if the number is, up to whole rounds of the
words. -/
theorem ofNat_eq_neg_one_iff {o : Nat} :
    Int32.ofNat o = -1 ↔ o % Word.bound32 = Word.bound32 - 1 := by
  have hone : (-1 : Int32).toInt = -1 := by decide
  have hsize : Word.bound32 = 2 ^ 32 := rfl
  rw [← Int32.toInt_inj, hone, Int32.toInt_ofNat', hsize]
  simp only [Int32.size, Int.bmod]
  omega

/-! ### Squares -/

/-- The numbers of words take no more than 32 bits. -/
theorem natAbs_toInt_add_one_le (o : Int32) : (o.toInt + 1).natAbs ≤ 2 ^ 31 := by
  have hleast := o.le_toInt
  have hgreatest := o.toInt_lt
  omega

/-- One is one. -/
theorem value_one : Binary64.one.value = 1 := by
  rw [Binary64.value, Binary64.value_magnitude, Binary64.one, Decimal.Binary64.hiddenBit_eq]
  norm_num [Binary64.signed]

/-- The number of a word and the one after it are numbers of the format, so that only the square is
rounded. -/
theorem squareAbove?_eq (o : Int32) : squareAbove? o = Binary64.ofInt? ((o.toInt + 1) ^ 2) := by
  have hleast := o.le_toInt
  have hgreatest := o.toInt_lt
  have hbound : Decimal.significandBound = 2 ^ 53 := rfl
  obtain ⟨x, hx, hvalue⟩ := Binary64.exists_ofInt?_exact (n := o.toInt) (by omega)
  obtain ⟨base, hbase, hsum⟩ := Binary64.exists_add?_exact (x := Binary64.one) (y := x)
    (n := o.toInt + 1) (by rw [value_one, hvalue, Int.cast_add, Int.cast_one, add_comm]) (by omega)
  simp only [squareAbove?, hx, Option.bind_eq_bind, Option.bind_some, hbase]
  exact Binary64.mul?_self hsum

/-- The square of the number after that of a word is below the greatest numbers. -/
theorem natAbs_sq_lt (o : Int32) : ((o.toInt + 1) ^ 2).natAbs < 2 ^ 1023 := by
  rw [Int.natAbs_pow]
  calc (o.toInt + 1).natAbs ^ 2 ≤ (2 ^ 31) ^ 2 := Nat.pow_le_pow_left (natAbs_toInt_add_one_le o) 2
    _ < 2 ^ 1023 := by decide +kernel

/-- A word weighs the square of the number after its own, rounded once. -/
theorem ofInt?_weightOfOverlap (o : Int32) :
    Binary64.ofInt? ((o.toInt + 1) ^ 2) = some (weightOfOverlap o) := by
  obtain ⟨weight, hweight, -⟩ := Binary64.exists_ofInt? (natAbs_sq_lt o)
  rw [weightOfOverlap, squareAbove?_eq, hweight, Option.getD_some]

/-- The weight of a word is no negative number, no number is nearer to the square, and it is off by
a small part of the square at most. -/
theorem weightOfOverlap_spec (o : Int32) :
    (weightOfOverlap o).negative = false ∧
      (weightOfOverlap o).IsNearest (((o.toInt + 1) ^ 2 : Int) : ℚ) ∧
      |(weightOfOverlap o).value - ((o.toInt + 1) ^ 2 : Int)| ≤
        ((o.toInt + 1) ^ 2 : Int) / 2 ^ 53 := by
  obtain ⟨weight, hweight, hsign, hnearest, hoff⟩ := Binary64.exists_ofInt? (natAbs_sq_lt o)
  obtain rfl : weight = weightOfOverlap o :=
    Option.some.inj (hweight.symm.trans (ofInt?_weightOfOverlap o))
  have hnonneg : (0 : ℚ) ≤ ((o.toInt + 1) ^ 2 : Int) := by exact_mod_cast sq_nonneg (o.toInt + 1)
  rw [abs_of_nonneg hnonneg] at hoff
  refine ⟨?_, hnearest, hoff⟩
  rw [hsign]
  exact decide_eq_false (not_lt.2 (sq_nonneg _))

/-- No weight is negative. -/
theorem value_weightOfOverlap_nonneg (o : Int32) : 0 ≤ (weightOfOverlap o).value := by
  rw [Binary64.value, (weightOfOverlap_spec o).1]
  exact Binary64.value_magnitude_nonneg _

/-- The word before zero weighs nothing. -/
theorem value_weightOfOverlap_neg_one : (weightOfOverlap (-1)).value = 0 := by
  have hone : (-1 : Int32).toInt = -1 := by decide
  have hoff := (weightOfOverlap_spec (-1)).2.2
  rw [hone] at hoff
  norm_num at hoff
  exact hoff

/-- Every word weighs at least one, except for the one before zero. -/
theorem one_le_weightOfOverlap_iff {o : Int32} : 1 ≤ (weightOfOverlap o).value ↔ o ≠ -1 := by
  constructor
  · rintro hle rfl
    rw [value_weightOfOverlap_neg_one] at hle
    exact absurd hle (by norm_num)
  · intro hne
    have hone : (-1 : Int32).toInt = -1 := by decide
    have hbase : o.toInt + 1 ≠ 0 := by
      intro hzero
      exact hne (Int32.toInt_inj.1 (by omega))
    have hsquare : (1 : ℚ) ≤ ((o.toInt + 1) ^ 2 : Int) := by
      have hpos : 0 < (o.toInt + 1) ^ 2 := by positivity
      exact_mod_cast hpos
    -- one is a number, and the weight is no farther from the square than it
    have hnearest := (weightOfOverlap_spec o).2.1 Binary64.one
    rw [value_one] at hnearest
    by_contra hlt
    rw [not_le] at hlt
    rw [abs_of_nonpos (by linarith), abs_of_nonpos (by linarith)] at hnearest
    linarith

/-- A word weighs nothing exactly if it is the one before zero. -/
theorem isZero_weightOfOverlap_iff {o : Int32} :
    (weightOfOverlap o).isZero = true ↔ o = -1 := by
  rw [Binary64.isZero_iff]
  constructor
  · intro hzero
    by_contra hne
    have hle := one_le_weightOfOverlap_iff.2 hne
    rw [hzero] at hle
    exact absurd hle (by norm_num)
  · rintro rfl
    exact value_weightOfOverlap_neg_one

/-! ### Numbers below `2 ^ 31` -/

section

variable {o p : Nat}

/-- A number weighs the square of the one after it, rounded once. -/
theorem ofInt?_weightOfOverlap_ofNat (h : o < Word.bound31) :
    Binary64.ofInt? ((1 + o) ^ 2 : Nat) = some (weightOfOverlap (.ofNat o)) := by
  rw [← ofInt?_weightOfOverlap, toInt_ofNat h, Int.natCast_pow, Int.natCast_add, Int.natCast_one,
    add_comm]

/-- No number of the format is nearer to the square than the weight, which is off by a small part
of the square at most. -/
theorem weightOfOverlap_ofNat_spec (h : o < Word.bound31) :
    (weightOfOverlap (.ofNat o)).IsNearest ((1 + (o : ℚ)) ^ 2) ∧
      |(weightOfOverlap (.ofNat o)).value - (1 + (o : ℚ)) ^ 2| ≤ (1 + (o : ℚ)) ^ 2 / 2 ^ 53 := by
  obtain ⟨-, hnearest, hoff⟩ := weightOfOverlap_spec (.ofNat o)
  have hsquare : (((Int32.ofNat o).toInt + 1) ^ 2 : Int) = (((1 + o) ^ 2 : Nat) : Int) := by
    rw [toInt_ofNat h, add_comm]
    push_cast
    rfl
  rw [hsquare] at hnearest hoff
  push_cast at hnearest hoff
  exact ⟨hnearest, hoff⟩

/-- The weight is the square exactly if all bits of the square but 53 are zeros at its end. -/
theorem weightOfOverlap_eq_iff (h : o < Word.bound31) :
    (weightOfOverlap (.ofNat o)).value = (1 + (o : ℚ)) ^ 2 ↔
      ∃ k < Decimal.significandBound, ∃ j, (1 + o) ^ 2 = k * 2 ^ j := by
  have hlt : (((1 + o) ^ 2 : Nat) : Int).natAbs < 2 ^ 1023 := by
    have hbound := natAbs_sq_lt (.ofNat o)
    rwa [toInt_ofNat h, add_comm] at hbound
  have hiff := Binary64.value_eq_iff_of_ofInt? hlt (ofInt?_weightOfOverlap_ofNat h)
  rw [Int.natAbs_natCast] at hiff
  push_cast at hiff
  exact hiff

/-- The weight is the square if that takes no more than 53 bits. -/
theorem weightOfOverlap_eq_of_le (h : (1 + o) ^ 2 ≤ 2 ^ 53) :
    (weightOfOverlap (.ofNat o)).value = (1 + (o : ℚ)) ^ 2 := by
  have hbelow : o < Word.bound31 := by
    have hbound : Word.bound31 = 2 ^ 31 := rfl
    nlinarith
  rw [weightOfOverlap_eq_iff hbelow]
  rcases lt_or_eq_of_le h with hlt | heq
  · exact ⟨_, hlt, 0, by rw [pow_zero, Nat.mul_one]⟩
  · exact ⟨1, by decide, 53, by rw [heq, Nat.one_mul]⟩

/-- The more tokens are in common, the greater is the weight. -/
theorem weightOfOverlap_lt (hp : p < Word.bound31) (h : o < p) :
    (weightOfOverlap (.ofNat o)).value < (weightOfOverlap (.ofNat p)).value := by
  have hoff := abs_le.1 (weightOfOverlap_ofNat_spec (h.trans hp)).2
  have hother := abs_le.1 (weightOfOverlap_ofNat_spec hp).2
  have hnext : (o : ℚ) + 1 ≤ p := by exact_mod_cast h
  have hbound : (p : ℚ) + 1 ≤ 2 ^ 31 := by exact_mod_cast hp
  have hnonneg : (0 : ℚ) ≤ o := Nat.cast_nonneg o
  -- both roundings together are less than the distance of the squares
  have hgap : 1 + (p : ℚ) ≤ (1 + (p : ℚ)) ^ 2 - (1 + (o : ℚ)) ^ 2 := by nlinarith
  have hless : (1 + (o : ℚ)) ^ 2 ≤ (1 + (p : ℚ)) ^ 2 := by nlinarith
  have hsmall : (1 + (p : ℚ)) ^ 2 ≤ 2 ^ 31 * (1 + (p : ℚ)) := by nlinarith
  linarith

/-- Of numbers below `2 ^ 31`, the greater one weighs more. -/
theorem weightOfOverlap_le_iff (ho : o < Word.bound31) (hp : p < Word.bound31) :
    (weightOfOverlap (.ofNat o)).value ≤ (weightOfOverlap (.ofNat p)).value ↔ o ≤ p := by
  constructor
  · intro hle
    by_contra hlt
    exact absurd hle (not_le.2 (weightOfOverlap_lt ho (not_le.1 hlt)))
  · intro hle
    rcases lt_or_eq_of_le hle with hlt | rfl
    · exact (weightOfOverlap_lt hp hlt).le
    · exact le_rfl

end

/-! ### Weights as integers -/

/-- A weight is an integer. -/
theorem wholePart_weightOfOverlap (o : Int32) :
    ((weightOfOverlap o).wholePart : ℚ) = (weightOfOverlap o).value := by
  obtain ⟨m, hm⟩ := Binary64.exists_natCast_of_ofInt? (natAbs_sq_lt o) (ofInt?_weightOfOverlap o)
  rw [Binary64.wholePart_eq hm, ← hm, Binary64.value, (weightOfOverlap_spec o).1]
  rfl

/-- The weights as integers have the values of the weights. -/
theorem natCast_weights (corpus : Corpus) (evidence : Evidence) :
    (corpus.weights evidence).map (Nat.cast (R := ℚ)) =
      (corpus.weigh evidence).map Binary64.value := by
  rw [weights, weigh, List.map_map, List.map_map, List.map_map]
  exact List.map_congr_left fun program _ => wholePart_weightOfOverlap _

end Corpus

end EvidenceSynthesis
