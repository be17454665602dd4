import EvidenceSynthesis.Decimal.Binary64
import Mathlib

/-!
# Rounding to binary64 numbers

A ratio is rounded at the exponent at which its significand has 53 bits, or at the least exponent
(`Binary64.IsExponentOf`).  A value has only one such exponent, so that what a ratio is rounded to
depends on nothing but its value (`Binary64.ofRatio?_congr`).

The result is off by half a unit of the significand at most, which is a small part of the value
wherever the significand has all of its bits (`Binary64.exists_ofRatio?`).  Integers are rounded to
themselves exactly if all but 53 of their bits are zeros at their end
(`Binary64.value_eq_iff_of_ofInt?`), and sums of small integers are exact
(`Binary64.exists_add?_eq`).
-/

namespace EvidenceSynthesis.Decimal

namespace Ratio

/-- The value of a ratio. -/
def value (r : Ratio) : ℚ :=
  r.num / r.den

variable {r s : Ratio}

/-- Scaling a ratio multiplies its value by a power of two. -/
theorem value_scaleBinary (r : Ratio) (exponent : Int) :
    (r.scaleBinary exponent).value = r.value * 2 ^ exponent := by
  cases exponent with
  | ofNat k =>
    simp only [scaleBinary, value, Nat.pow_eq]
    push_cast
    rw [Int.ofNat_eq_natCast, zpow_natCast]
    ring
  | negSucc k =>
    simp only [scaleBinary, value, Nat.pow_eq]
    push_cast
    rw [zpow_negSucc, div_mul_eq_div_div, div_eq_mul_inv _ ((2 : ℚ) ^ (k + 1))]

theorem den_scaleBinary_pos (h : 0 < r.den) (exponent : Int) :
    0 < (r.scaleBinary exponent).den := by
  cases exponent with
  | ofNat k => exact h
  | negSucc k => exact Nat.mul_pos h (Nat.pow_pos Nat.two_pos)

theorem value_pos_iff (h : 0 < r.den) : 0 < r.value ↔ r.num ≠ 0 := by
  have hden : (0 : ℚ) < r.den := Nat.cast_pos.2 h
  rw [value, div_pos_iff_of_pos_right hden, Nat.cast_pos, Nat.pos_iff_ne_zero]

theorem value_eq_zero_iff (h : 0 < r.den) : r.value = 0 ↔ r.num = 0 := by
  have hden : (r.den : ℚ) ≠ 0 := Nat.cast_ne_zero.2 h.ne'
  rw [value, div_eq_zero_iff, or_iff_left hden, Nat.cast_eq_zero]

/-- The whole part is below a bound if the value is. -/
theorem div_lt_iff (h : 0 < r.den) (n : Nat) : r.num / r.den < n ↔ r.value < n := by
  have hden : (0 : ℚ) < r.den := Nat.cast_pos.2 h
  rw [Nat.div_lt_iff_lt_mul h, value, div_lt_iff₀ hden]
  exact_mod_cast Iff.rfl

/-! ### The nearest natural number -/

/-- The nearest natural number is off by one half at most. -/
theorem abs_round_sub_value_le (h : 0 < r.den) : |(r.round : ℚ) - r.value| ≤ 1 / 2 := by
  have hden : (0 : ℚ) < r.den := Nat.cast_pos.2 h
  have hvalue : r.value = (r.num / r.den : Nat) + ((r.num % r.den : Nat) : ℚ) / r.den := by
    have hparts : (r.num : ℚ) = r.den * (r.num / r.den : Nat) + (r.num % r.den : Nat) :=
      mod_cast (Nat.div_add_mod r.num r.den).symm
    rw [value, div_eq_iff hden.ne', add_mul, div_mul_cancel₀ _ hden.ne', hparts]
    ring
  have hrest : ((r.num % r.den : Nat) : ℚ) / r.den * r.den = (r.num % r.den : Nat) :=
    div_mul_cancel₀ _ hden.ne'
  have hnonneg : (0 : ℚ) ≤ ((r.num % r.den : Nat) : ℚ) / r.den := by positivity
  have hlt : ((r.num % r.den : Nat) : ℚ) / r.den < 1 := by
    rw [div_lt_one hden]
    exact_mod_cast Nat.mod_lt _ h
  rw [hvalue, round]
  generalize ((r.num % r.den : Nat) : ℚ) / r.den = rest at *
  -- the rest is compared with one half by doubling it
  split
  · rename_i hbelow
    have hhalf : (2 : ℚ) * (r.num % r.den : Nat) < r.den := mod_cast hbelow
    have hle : rest ≤ 1 / 2 := by nlinarith
    rw [abs_le]
    constructor <;> linarith
  · split
    · rename_i habove
      have hhalf : (r.den : ℚ) < 2 * (r.num % r.den : Nat) := mod_cast habove
      have hle : 1 / 2 ≤ rest := by nlinarith
      push_cast
      rw [abs_le]
      constructor <;> linarith
    · rename_i hbelow habove
      have htie : (2 : ℚ) * (r.num % r.den : Nat) = r.den := mod_cast (by omega)
      have hhalf : rest = 1 / 2 := by
        have hmul : (2 * rest - 1) * r.den = 0 := by linarith
        have hzero := (mul_eq_zero.1 hmul).resolve_right hden.ne'
        linarith
      have hparity : r.num / r.den % 2 = 0 ∨ r.num / r.den % 2 = 1 := by omega
      rcases hparity with heven | hodd
      · rw [heven, hhalf, abs_le]
        push_cast
        constructor <;> linarith
      · rw [hodd, hhalf, abs_le]
        push_cast
        constructor <;> linarith

/-- No natural number is nearer. -/
theorem abs_round_sub_value_le_abs (h : 0 < r.den) (n : Nat) :
    |(r.round : ℚ) - r.value| ≤ |(n : ℚ) - r.value| := by
  by_cases hn : n = r.round
  · rw [hn]
  · have hapart : (1 : ℚ) ≤ |(n : ℚ) - r.round| := by
      have hint : (1 : ℤ) ≤ |(n : ℤ) - r.round| := Int.one_le_abs (by omega)
      exact_mod_cast hint
    have htriangle := abs_sub_le (n : ℚ) r.value r.round
    rw [abs_sub_comm r.value] at htriangle
    have hoff := abs_round_sub_value_le h
    linarith

/-- A ratio that is extended by a factor is rounded alike. -/
theorem round_mul_left (r : Ratio) {k : Nat} (hk : 0 < k) :
    (⟨k * r.num, k * r.den⟩ : Ratio).round = r.round := by
  have hdouble : 2 * (k * (r.num % r.den)) = k * (2 * (r.num % r.den)) := by ring
  simp only [round, Nat.mul_div_mul_left _ _ hk, Nat.mul_mod_mul_left, hdouble,
    Nat.mul_lt_mul_left hk]

/-- Ratios of the same value are rounded alike. -/
theorem round_congr (hr : 0 < r.den) (hs : 0 < s.den) (h : r.value = s.value) :
    r.round = s.round := by
  have hcross : s.den * r.num = r.den * s.num := by
    have hr' : (r.den : ℚ) ≠ 0 := Nat.cast_ne_zero.2 hr.ne'
    have hs' : (s.den : ℚ) ≠ 0 := Nat.cast_ne_zero.2 hs.ne'
    rw [value, value, div_eq_div_iff hr' hs'] at h
    have hnat : r.num * s.den = s.num * r.den := mod_cast h
    linarith
  calc r.round = (⟨s.den * r.num, s.den * r.den⟩ : Ratio).round := (r.round_mul_left hs).symm
    _ = (⟨r.den * s.num, r.den * s.den⟩ : Ratio).round := by rw [hcross, Nat.mul_comm s.den]
    _ = s.round := s.round_mul_left hr

end Ratio

namespace Binary64

/-! ### Exponents -/

/-- Whether a value is rounded at an exponent: there its significand has 53 bits, or the exponent is
the least one and the significand has no more bits. -/
structure IsExponentOf (exponent : Int) (value : ℚ) : Prop where
  least : minExponent ≤ exponent
  lt : value < 2 ^ (exponent + 53)
  le : exponent = minExponent ∨ (2 : ℚ) ^ (exponent + 52) ≤ value

theorem lt_of_zpow_lt {a b : Int} (h : (2 : ℚ) ^ a < 2 ^ b) : a < b :=
  (zpow_lt_zpow_iff_right₀ one_lt_two).1 h

/-- A value is rounded at only one exponent. -/
theorem IsExponentOf.unique {exponent other : Int} {value : ℚ} (h : IsExponentOf exponent value)
    (hother : IsExponentOf other value) : exponent = other := by
  have hle : ∀ {a b : Int}, IsExponentOf a value → IsExponentOf b value → a ≤ b := by
    intro a b ha hb
    rcases ha.le with rfl | hle
    · exact hb.least
    · have hlt := lt_of_zpow_lt (hle.trans_lt hb.lt)
      omega
  exact le_antisymm (hle h hother) (hle hother h)

/-- The logarithms of the parts of a ratio tell its value up to a factor of two. -/
theorem value_bounds {r : Ratio} (hnum : r.num ≠ 0) (hden : 0 < r.den) :
    (2 : ℚ) ^ ((r.num.log2 : Int) - r.den.log2 - 1) ≤ r.value ∧
      r.value < 2 ^ ((r.num.log2 : Int) - r.den.log2 + 1) := by
  have hden' : (0 : ℚ) < r.den := Nat.cast_pos.2 hden
  have hnumLow : (2 : ℚ) ^ (r.num.log2 : Int) ≤ r.num := by
    rw [zpow_natCast]
    exact_mod_cast Nat.log2_self_le hnum
  have hnumHigh : (r.num : ℚ) < 2 ^ ((r.num.log2 : Int) + 1) := by
    rw [← Nat.cast_succ, zpow_natCast]
    exact_mod_cast Nat.lt_log2_self
  have hdenLow : (2 : ℚ) ^ (r.den.log2 : Int) ≤ r.den := by
    rw [zpow_natCast]
    exact_mod_cast Nat.log2_self_le hden.ne'
  have hdenHigh : (r.den : ℚ) < 2 ^ ((r.den.log2 : Int) + 1) := by
    rw [← Nat.cast_succ, zpow_natCast]
    exact_mod_cast Nat.lt_log2_self
  constructor
  · rw [Ratio.value, le_div_iff₀ hden']
    calc (2 : ℚ) ^ ((r.num.log2 : Int) - r.den.log2 - 1) * r.den
        ≤ 2 ^ ((r.num.log2 : Int) - r.den.log2 - 1) * 2 ^ ((r.den.log2 : Int) + 1) := by gcongr
      _ = 2 ^ (r.num.log2 : Int) := by
        rw [← zpow_add₀ two_ne_zero]
        congr 1
        ring
      _ ≤ r.num := hnumLow
  · rw [Ratio.value, div_lt_iff₀ hden']
    calc (r.num : ℚ) < 2 ^ ((r.num.log2 : Int) + 1) := hnumHigh
      _ = 2 ^ ((r.num.log2 : Int) - r.den.log2 + 1) * 2 ^ (r.den.log2 : Int) := by
        rw [← zpow_add₀ two_ne_zero]
        congr 1
        ring
      _ ≤ 2 ^ ((r.num.log2 : Int) - r.den.log2 + 1) * r.den := by gcongr

theorem significandBound_eq : (significandBound : ℚ) = 2 ^ (53 : Int) := by
  norm_num [significandBound]

theorem hiddenBit_eq : (hiddenBit : ℚ) = 2 ^ (52 : Int) := by
  norm_num [hiddenBit]

/-- The exponent of a ratio is the one at which its value is rounded. -/
theorem isExponentOf_exponentOf {r : Ratio} (hnum : r.num ≠ 0) (hden : 0 < r.den) :
    IsExponentOf (exponentOf r) r.value := by
  obtain ⟨hlow, hhigh⟩ := value_bounds hnum hden
  set low : Int := (r.num.log2 : Int) - (r.den.log2 : Int) - 53 with hlowdef
  -- at the lower one of two exponents the significand may have a bit too many
  have hfits : (r.scaleBinary (-low)).num / (r.scaleBinary (-low)).den < significandBound ↔
      r.value < 2 ^ (low + 53) := by
    rw [Ratio.div_lt_iff (Ratio.den_scaleBinary_pos hden _), Ratio.value_scaleBinary,
      significandBound_eq, zpow_neg, ← div_eq_mul_inv, div_lt_iff₀ (by positivity),
      ← zpow_add₀ two_ne_zero, add_comm]
  obtain ⟨fitted, hfitted, hlt, hle⟩ : ∃ fitted, exponentOf r = max minExponent fitted ∧
      r.value < 2 ^ (fitted + 53) ∧ (2 : ℚ) ^ (fitted + 52) ≤ r.value := by
    by_cases hbelow : r.value < 2 ^ (low + 53)
    · refine ⟨low, ?_, hbelow, ?_⟩
      · rw [exponentOf, if_pos (hfits.2 hbelow)]
      · have hexponent : low + 52 = (r.num.log2 : Int) - r.den.log2 - 1 := by omega
        rwa [hexponent]
    · refine ⟨low + 1, ?_, ?_, ?_⟩
      · rw [exponentOf, if_neg (mt hfits.1 hbelow)]
      · have hexponent : low + 1 + 53 = (r.num.log2 : Int) - r.den.log2 + 1 := by omega
        rwa [hexponent]
      · have hexponent : low + 1 + 52 = low + 53 := by omega
        rw [hexponent]
        exact not_lt.1 hbelow
  rw [hfitted]
  refine ⟨le_max_left _ _, hlt.trans_le ?_, ?_⟩
  · exact zpow_le_zpow_right₀ one_le_two (by omega)
  · rcases le_total fitted minExponent with hmin | hmin
    · exact Or.inl (max_eq_left hmin)
    · exact Or.inr (by rwa [max_eq_right hmin])

/-! ### Values -/

/-- A value with a sign. -/
def signed (negative : Bool) (value : ℚ) : ℚ :=
  if negative then -value else value

theorem abs_signed (negative : Bool) (value : ℚ) : |signed negative value| = |value| := by
  cases negative
  · rfl
  · exact abs_neg value

theorem abs_signed_sub_signed (negative : Bool) (a b : ℚ) :
    |signed negative a - signed negative b| = |a - b| := by
  cases negative
  · rfl
  · exact (congrArg abs (neg_sub_neg a b)).trans (abs_sub_comm b a)

/-- Signs that are different only take values apart. -/
theorem abs_sub_le_abs_signed_sub {a b : ℚ} (ha : 0 ≤ a) (hb : 0 ≤ b) (negative other : Bool) :
    |a - b| ≤ |signed negative a - signed other b| := by
  have hapart : |a - b| ≤ a + b := abs_le.2 ⟨by linarith, by linarith⟩
  cases negative <;> cases other
  · exact le_rfl
  · calc |a - b| ≤ a + b := hapart
      _ ≤ |a - -b| := by rw [sub_neg_eq_add]; exact le_abs_self _
  · calc |a - b| ≤ a + b := hapart
      _ = -(-a - b) := by ring
      _ ≤ |-a - b| := neg_le_abs _
  · exact (abs_signed_sub_signed true a b).ge

/-- A value is its size with its sign. -/
theorem signed_abs {negative : Bool} {value : ℚ} (h : value ≠ 0 → (negative = true ↔ value < 0)) :
    signed negative |value| = value := by
  by_cases hzero : value = 0
  · rw [hzero, abs_zero]
    cases negative
    · rfl
    · exact neg_zero
  · cases negative with
    | false =>
      have hnonneg : 0 ≤ value := not_lt.1 (mt (h hzero).2 Bool.false_ne_true)
      exact abs_of_nonneg hnonneg
    | true =>
      have hneg : value < 0 := (h hzero).1 rfl
      exact (congrArg Neg.neg (abs_of_neg hneg)).trans (neg_neg value)

/-- The value of a number. -/
def value (x : Binary64) : ℚ :=
  signed x.negative x.magnitude.value

/-- The magnitude of a float is its significand at its exponent. -/
theorem value_magnitude (x : Binary64) :
    x.magnitude.value = x.significand * 2 ^ x.exponent := by
  rw [magnitude, Ratio.value_scaleBinary, Ratio.value, Nat.cast_one, div_one]

theorem den_magnitude_pos (x : Binary64) : 0 < x.magnitude.den :=
  Ratio.den_scaleBinary_pos Nat.one_pos _

theorem value_magnitude_nonneg (x : Binary64) : 0 ≤ x.magnitude.value := by
  rw [value_magnitude]
  positivity

/-- The magnitude of a float is its absolute value. -/
theorem abs_value (x : Binary64) : |x.value| = x.magnitude.value := by
  rw [value, abs_signed, abs_of_nonneg x.value_magnitude_nonneg]

/-- Zeros are the numbers without value. -/
theorem isZero_iff (x : Binary64) : x.isZero = true ↔ x.value = 0 := by
  rw [← abs_eq_zero, abs_value, value_magnitude, mul_eq_zero, Nat.cast_eq_zero,
    or_iff_left (zpow_ne_zero _ two_ne_zero), isZero, beq_iff_eq]

/-- Whether no number is nearer to a value. -/
def IsNearest (x : Binary64) (value : ℚ) : Prop :=
  ∀ y : Binary64, |x.value - value| ≤ |y.value - value|

/-- What is nearest to the value of a number has its value. -/
theorem IsNearest.value_eq {x y : Binary64} {value : ℚ} (h : x.IsNearest value)
    (hy : y.value = value) : x.value = value := by
  have hle := h y
  rw [hy, sub_self, abs_zero] at hle
  exact sub_eq_zero.1 (abs_nonpos_iff.1 hle)

/-! ### Rounding -/

/-- The significand to which a ratio is rounded. -/
def significandOf (r : Ratio) : Nat :=
  (r.scaleBinary (-exponentOf r)).round

section

variable {r s : Ratio} {negative : Bool}

/-- A multiple of the unit of the significand is off by so many units. -/
theorem abs_mul_unit_sub (r : Ratio) (n : Nat) :
    |(n : ℚ) * 2 ^ exponentOf r - r.value| =
      |(n : ℚ) - (r.scaleBinary (-exponentOf r)).value| * 2 ^ exponentOf r := by
  have hunit : (0 : ℚ) < 2 ^ exponentOf r := by positivity
  rw [Ratio.value_scaleBinary, ← abs_of_pos hunit, ← abs_mul, abs_of_pos hunit, sub_mul,
    mul_assoc r.value, ← zpow_add₀ two_ne_zero, neg_add_cancel, zpow_zero, mul_one]

/-- A ratio is rounded to a multiple of the unit that is off by half a unit at most. -/
theorem abs_significandOf_sub_le_half (hden : 0 < r.den) :
    |significandOf r * 2 ^ exponentOf r - r.value| ≤ 1 / 2 * 2 ^ exponentOf r := by
  rw [abs_mul_unit_sub]
  gcongr
  exact Ratio.abs_round_sub_value_le (Ratio.den_scaleBinary_pos hden _)

/-- No multiple of the unit is nearer to a ratio than the one to which it is rounded. -/
theorem abs_significandOf_sub_le (hden : 0 < r.den) (n : Nat) :
    |significandOf r * 2 ^ exponentOf r - r.value| ≤ |(n : ℚ) * 2 ^ exponentOf r - r.value| := by
  rw [abs_mul_unit_sub, abs_mul_unit_sub]
  exact mul_le_mul_of_nonneg_right
    (Ratio.abs_round_sub_value_le_abs (Ratio.den_scaleBinary_pos hden _) n) (by positivity)

/-- The significand has at most one bit too many, and all of its bits unless the exponent is the
least one. -/
theorem significandOf_bounds (hnum : r.num ≠ 0) (hden : 0 < r.den) :
    significandOf r ≤ significandBound ∧
      (significandOf r < hiddenBit → exponentOf r = minExponent) := by
  obtain ⟨-, hlt, hle⟩ := isExponentOf_exponentOf hnum hden
  have hpos := Ratio.den_scaleBinary_pos hden (-exponentOf r)
  have hoff := abs_le.1 (Ratio.abs_round_sub_value_le hpos)
  have hscaled := Ratio.value_scaleBinary r (-exponentOf r)
  have hunit : (0 : ℚ) < 2 ^ exponentOf r := by positivity
  rw [zpow_neg, ← div_eq_mul_inv] at hscaled
  rw [significandOf]
  constructor
  · have hbelow : (r.scaleBinary (-exponentOf r)).value < significandBound := by
      rwa [hscaled, div_lt_iff₀ hunit, significandBound_eq, ← zpow_add₀ two_ne_zero, add_comm]
    have hround : ((r.scaleBinary (-exponentOf r)).round : ℚ) < significandBound + 1 := by
      linarith [hoff.2]
    exact Nat.lt_succ_iff.1 (mod_cast hround)
  · intro hsmall
    refine hle.resolve_right fun hle => ?_
    have habove : (hiddenBit : ℚ) ≤ (r.scaleBinary (-exponentOf r)).value := by
      rwa [hscaled, le_div_iff₀ hunit, hiddenBit_eq, ← zpow_add₀ two_ne_zero, add_comm]
    have hround : (hiddenBit : ℚ) < (r.scaleBinary (-exponentOf r)).round + 1 := by
      linarith [hoff.1]
    exact absurd hsmall (not_lt.2 (Nat.lt_succ_iff.1 (mod_cast hround)))

/-- A significand that rounds up to 54 bits is halved, and its exponent raised. -/
theorem ofRatio?_of_ne_zero (negative : Bool) (hnum : r.num ≠ 0) :
    ofRatio? negative r =
      if significandOf r = significandBound then ofParts? negative hiddenBit (exponentOf r + 1)
      else ofParts? negative (significandOf r) (exponentOf r) :=
  if_neg hnum

/-- A ratio that is not too great is rounded to a number, whose parts are the significand and the
exponent of the ratio up to a carry. -/
theorem exists_ofRatio?_parts (negative : Bool) (hnum : r.num ≠ 0) (hden : 0 < r.den)
    (hvalue : r.value < 2 ^ (1023 : Int)) :
    ∃ x, ofRatio? negative r = some x ∧ x.negative = negative ∧
      x.magnitude.value = significandOf r * 2 ^ exponentOf r := by
  obtain ⟨hbound, hbits⟩ := significandOf_bounds hnum hden
  obtain ⟨hleast, -, hle⟩ := isExponentOf_exponentOf hnum hden
  have hgreatest : exponentOf r + 1 ≤ maxExponent := by
    rcases hle with hmin | hle
    · rw [hmin]
      decide
    · have hlt := lt_of_zpow_lt (hle.trans_lt hvalue)
      simp only [maxExponent]
      omega
  by_cases hcarry : significandOf r = significandBound
  · have hcanonical : IsCanonical hiddenBit (exponentOf r + 1) :=
      ⟨by decide, by omega, hgreatest, fun h => absurd h (lt_irrefl _)⟩
    refine ⟨⟨negative, hiddenBit, exponentOf r + 1, hcanonical⟩, ?_, rfl, ?_⟩
    · rw [ofRatio?_of_ne_zero negative hnum, if_pos hcarry]
      exact dif_pos hcanonical
    · rw [value_magnitude, hcarry, significandBound_eq, hiddenBit_eq, ← zpow_add₀ two_ne_zero,
        ← zpow_add₀ two_ne_zero]
      congr 1
      ring
  · have hcanonical : IsCanonical (significandOf r) (exponentOf r) :=
      ⟨lt_of_le_of_ne hbound hcarry, hleast, by omega, hbits⟩
    refine ⟨⟨negative, significandOf r, exponentOf r, hcanonical⟩, ?_, rfl, value_magnitude _⟩
    rw [ofRatio?_of_ne_zero negative hnum, if_neg hcarry]
    exact dif_pos hcanonical

/-- No number of 53 bits is nearer to a ratio than what it is rounded to. -/
theorem abs_significandOf_sub_le_of_bits (hnum : r.num ≠ 0) (hden : 0 < r.den) {k : Nat} {j : Int}
    (hk : k < significandBound) (hj : minExponent ≤ j) :
    |significandOf r * 2 ^ exponentOf r - r.value| ≤ |(k : ℚ) * 2 ^ j - r.value| := by
  obtain ⟨hleast, -, hle⟩ := isExponentOf_exponentOf hnum hden
  rcases le_or_gt (exponentOf r) j with hunit | hfine
  · -- the number is a multiple of the unit
    obtain ⟨d, hd⟩ := Int.le.dest hunit
    have hmultiple : (k : ℚ) * 2 ^ j = (k * 2 ^ d : Nat) * 2 ^ exponentOf r := by
      rw [← hd, zpow_add₀ two_ne_zero, zpow_natCast]
      push_cast
      ring
    rw [hmultiple]
    exact abs_significandOf_sub_le hden _
  · -- the number is below the least significand with all of its bits, and that one is a multiple
    have hfull : (hiddenBit : ℚ) * 2 ^ exponentOf r ≤ r.value := by
      rw [hiddenBit_eq, ← zpow_add₀ two_ne_zero, add_comm]
      exact hle.resolve_left (by omega)
    have hbelow : (k : ℚ) * 2 ^ j ≤ hiddenBit * 2 ^ exponentOf r := by
      calc (k : ℚ) * 2 ^ j ≤ significandBound * 2 ^ j := by gcongr
        _ = 2 ^ (j + 53) := by rw [significandBound_eq, ← zpow_add₀ two_ne_zero, add_comm]
        _ ≤ 2 ^ (exponentOf r + 52) := zpow_le_zpow_right₀ one_le_two (by omega)
        _ = hiddenBit * 2 ^ exponentOf r := by
          rw [hiddenBit_eq, ← zpow_add₀ two_ne_zero, add_comm]
    refine (abs_significandOf_sub_le hden hiddenBit).trans ?_
    rw [abs_of_nonpos (sub_nonpos.2 hfull), abs_of_nonpos (sub_nonpos.2 (hbelow.trans hfull))]
    linarith

/-- A ratio that is not too great is rounded to a number that is nearest to it.  If it is not too
small either, then the number is off by a small part of it at most. -/
theorem exists_ofRatio? (negative : Bool) (hden : 0 < r.den) (hvalue : r.value < 2 ^ (1023 : Int)) :
    ∃ x, ofRatio? negative r = some x ∧ x.negative = negative ∧
      x.IsNearest (signed negative r.value) ∧
      (1 ≤ r.value → |x.magnitude.value - r.value| ≤ r.value / 2 ^ 53) := by
  by_cases hnum : r.num = 0
  · have hzero : r.value = 0 := (Ratio.value_eq_zero_iff hden).2 hnum
    refine ⟨zero negative, if_pos hnum, rfl, fun y => ?_, fun h => ?_⟩
    · have hsame : (zero negative).value = signed negative r.value := by
        rw [value, value_magnitude, hzero, zero, Nat.cast_zero, zero_mul]
      rw [hsame, sub_self, abs_zero]
      exact abs_nonneg _
    · rw [hzero] at h
      exact absurd h (by norm_num)
  · obtain ⟨x, hx, hsign, hmagnitude⟩ := exists_ofRatio?_parts negative hnum hden hvalue
    refine ⟨x, hx, hsign, fun y => ?_, fun hone => ?_⟩
    · have hpos : 0 ≤ r.value := ((Ratio.value_pos_iff hden).2 hnum).le
      obtain ⟨hbits, hleast, -, -⟩ := y.canonical
      calc |x.value - signed negative r.value|
          = |significandOf r * 2 ^ exponentOf r - r.value| := by
            rw [value, hsign, abs_signed_sub_signed, hmagnitude]
        _ ≤ |y.significand * 2 ^ y.exponent - r.value| :=
          abs_significandOf_sub_le_of_bits hnum hden hbits hleast
        _ = |y.magnitude.value - r.value| := by rw [value_magnitude]
        _ ≤ |y.value - signed negative r.value| :=
          abs_sub_le_abs_signed_sub y.value_magnitude_nonneg hpos _ _
    · obtain ⟨-, hlt, hle⟩ := isExponentOf_exponentOf hnum hden
      have habove : exponentOf r ≠ minExponent := by
        have hexponent := lt_of_zpow_lt (a := 0) ((zpow_zero (2 : ℚ)).trans_le hone |>.trans_lt hlt)
        simp only [minExponent]
        omega
      calc |x.magnitude.value - r.value|
          ≤ 1 / 2 * 2 ^ exponentOf r := hmagnitude ▸ abs_significandOf_sub_le_half hden
        _ = 2 ^ (exponentOf r + 52) / 2 ^ 53 := by
          rw [zpow_add₀ two_ne_zero]
          norm_num
          ring
        _ ≤ r.value / 2 ^ 53 := by
          gcongr
          exact hle.resolve_left habove

/-- Ratios of the same value are rounded to the same number. -/
theorem ofRatio?_congr (negative : Bool) (hr : 0 < r.den) (hs : 0 < s.den)
    (h : r.value = s.value) : ofRatio? negative r = ofRatio? negative s := by
  by_cases hnum : r.num = 0
  · have hother : s.num = 0 := by
      rwa [← Ratio.value_eq_zero_iff hs, ← h, Ratio.value_eq_zero_iff hr]
    rw [ofRatio?, ofRatio?, if_pos hnum, if_pos hother]
  · have hother : s.num ≠ 0 := by
      rwa [ne_eq, ← Ratio.value_eq_zero_iff hs, ← h, Ratio.value_eq_zero_iff hr]
    have hexponent : exponentOf r = exponentOf s :=
      (isExponentOf_exponentOf hnum hr).unique (h ▸ isExponentOf_exponentOf hother hs)
    have hsignificand : significandOf r = significandOf s := by
      rw [significandOf, significandOf, hexponent]
      refine Ratio.round_congr (Ratio.den_scaleBinary_pos hr _) (Ratio.den_scaleBinary_pos hs _) ?_
      rw [Ratio.value_scaleBinary, Ratio.value_scaleBinary, h]
    rw [ofRatio?_of_ne_zero negative hnum, ofRatio?_of_ne_zero negative hother, hsignificand,
      hexponent]

end

/-! ### Integers -/

section

variable {n : Int}

/-- An integer that is not too great is rounded to a number that is nearest to it and off by a small
part of it at most. -/
theorem exists_ofInt? (h : n.natAbs < 2 ^ 1023) :
    ∃ x, ofInt? n = some x ∧ x.negative = decide (n < 0) ∧ x.IsNearest n ∧
      |x.value - n| ≤ |(n : ℚ)| / 2 ^ 53 := by
  have hvalue : (⟨n.natAbs, 1⟩ : Ratio).value = |(n : ℚ)| := by
    rw [Ratio.value, Nat.cast_one, div_one, Nat.cast_natAbs, Int.cast_abs]
  have hsigned : signed (decide (n < 0)) |(n : ℚ)| = n :=
    signed_abs fun _ => by rw [decide_eq_true_iff, Int.cast_lt_zero]
  have hlt : (⟨n.natAbs, 1⟩ : Ratio).value < 2 ^ (1023 : Int) := by
    rw [Ratio.value, Nat.cast_one, div_one]
    exact_mod_cast h
  obtain ⟨x, hx, hsign, hnearest, hsmall⟩ :=
    exists_ofRatio? (decide (n < 0)) (r := ⟨n.natAbs, 1⟩) Nat.one_pos hlt
  rw [hvalue] at hnearest hsmall
  rw [hsigned] at hnearest
  refine ⟨x, hx, hsign, hnearest, ?_⟩
  by_cases hzero : n = 0
  · have hle := hnearest (zero false)
    have hnone : (zero false).value = n := by
      rw [hzero, Int.cast_zero, ← isZero_iff]
      rfl
    rw [hnone, sub_self, abs_zero] at hle
    exact hle.trans (by positivity)
  · have hone : (1 : ℚ) ≤ |(n : ℚ)| := by
      have hint : 1 ≤ |n| := Int.one_le_abs hzero
      exact_mod_cast hint
    have hoff := abs_signed_sub_signed (decide (n < 0)) x.magnitude.value |(n : ℚ)|
    rw [hsigned, ← hsign] at hoff
    exact hoff.trans_le (hsmall hone)

/-- There is a number for every significand of 53 bits that is followed by zeros. -/
theorem exists_value_eq (negative : Bool) {k j : Nat} (hk : k < significandBound)
    (hj : k * 2 ^ j < 2 ^ 1023) : ∃ x : Binary64, x.value = signed negative (k * 2 ^ j) := by
  by_cases hzero : k = 0
  · refine ⟨zero negative, ?_⟩
    rw [value, value_magnitude, hzero, zero, Nat.cast_zero, zero_mul, zero_mul]
  · have hvalue : (⟨k * 2 ^ j, 1⟩ : Ratio).value = k * 2 ^ (j : Int) := by
      rw [Ratio.value, Nat.cast_one, div_one, zpow_natCast]
      push_cast
      rfl
    have hlt : (⟨k * 2 ^ j, 1⟩ : Ratio).value < 2 ^ (1023 : Int) := by
      rw [Ratio.value, Nat.cast_one, div_one]
      exact_mod_cast hj
    have hnum : k * 2 ^ j ≠ 0 := Nat.mul_ne_zero hzero (Nat.two_pow_pos j).ne'
    obtain ⟨x, -, hsign, hmagnitude⟩ :=
      exists_ofRatio?_parts negative (r := ⟨k * 2 ^ j, 1⟩) hnum Nat.one_pos hlt
    have hoff := abs_significandOf_sub_le_of_bits (r := ⟨k * 2 ^ j, 1⟩) hnum Nat.one_pos hk
      (j := j) (by simp only [minExponent]; omega)
    rw [← hvalue, sub_self, abs_zero] at hoff
    have hsame := sub_eq_zero.1 (abs_nonpos_iff.1 hoff)
    refine ⟨x, ?_⟩
    rw [value, hsign, hmagnitude, hsame, hvalue, zpow_natCast]

/-- An integer is rounded to itself exactly if all of its bits but the first 53 are zeros. -/
theorem value_eq_iff_of_ofInt? {x : Binary64} (hn : n.natAbs < 2 ^ 1023) (h : ofInt? n = some x) :
    x.value = n ↔ ∃ k < significandBound, ∃ j, n.natAbs = k * 2 ^ j := by
  have hcast : |(n : ℚ)| = (n.natAbs : ℚ) := by rw [Nat.cast_natAbs, Int.cast_abs]
  constructor
  · intro hvalue
    have habs : (n.natAbs : ℚ) = x.significand * 2 ^ x.exponent := by
      rw [← hcast, ← hvalue, abs_value, value_magnitude]
    rcases le_or_gt 0 x.exponent with hnonneg | hneg
    · obtain ⟨j, hj⟩ := Int.eq_ofNat_of_zero_le hnonneg
      rw [hj, zpow_natCast] at habs
      exact ⟨x.significand, x.canonical.1, j, mod_cast habs⟩
    · have hle : (2 : ℚ) ^ x.exponent ≤ 1 := zpow_le_one_of_nonpos₀ one_le_two hneg.le
      have hsmall : (n.natAbs : ℚ) ≤ x.significand := by
        rw [habs]
        exact mul_le_of_le_one_right (Nat.cast_nonneg _) hle
      have hbits : n.natAbs < significandBound :=
        lt_of_le_of_lt (mod_cast hsmall) x.canonical.1
      exact ⟨n.natAbs, hbits, 0, by rw [pow_zero, Nat.mul_one]⟩
  · rintro ⟨k, hk, j, hkj⟩
    obtain ⟨y, hy⟩ := exists_value_eq (decide (n < 0)) hk (hkj ▸ hn)
    obtain ⟨z, hz, -, hnearest, -⟩ := exists_ofInt? hn
    rw [h] at hz
    cases hz
    refine hnearest.value_eq (y := y) ?_
    have habs : |(n : ℚ)| = k * 2 ^ j := by
      rw [hcast, hkj]
      push_cast
      rfl
    rw [hy, ← habs]
    exact signed_abs fun _ => by rw [decide_eq_true_iff, Int.cast_lt_zero]

/-- What an integer is rounded to is an integer. -/
theorem exists_natCast_of_ofInt? {x : Binary64} (hn : n.natAbs < 2 ^ 1023) (h : ofInt? n = some x) :
    ∃ m : Nat, x.magnitude.value = m := by
  by_cases hbits : n.natAbs < significandBound
  · have hexact : x.value = n :=
      (value_eq_iff_of_ofInt? hn h).2 ⟨n.natAbs, hbits, 0, by rw [pow_zero, Nat.mul_one]⟩
    refine ⟨n.natAbs, ?_⟩
    rw [← abs_value, hexact, Nat.cast_natAbs, Int.cast_abs]
  · -- the integer is so great that a unit of the significand is an integer
    obtain ⟨y, hy, -, -, hoff⟩ := exists_ofInt? hn
    rw [h] at hy
    cases hy
    have hgreat : (2 : ℚ) ^ (53 : Int) ≤ |(n : ℚ)| := by
      rw [← significandBound_eq, ← Int.cast_abs, Int.abs_eq_natAbs, Int.cast_natCast]
      exact_mod_cast not_lt.1 hbits
    have hvalue : |(n : ℚ)| / 2 ≤ x.magnitude.value := by
      have htriangle := abs_sub_abs_le_abs_sub (n : ℚ) x.value
      rw [abs_sub_comm, abs_value] at htriangle
      have hsmall : |(n : ℚ)| / 2 ^ 53 ≤ |(n : ℚ)| / 2 := by gcongr; norm_num
      linarith
    have hexponent : 0 ≤ x.exponent := by
      have hbound : (x.significand : ℚ) < 2 ^ (53 : Int) := by
        rw [← significandBound_eq]
        exact_mod_cast x.canonical.1
      have hlt : (2 : ℚ) ^ (52 : Int) < 2 ^ (x.exponent + 53) := by
        calc (2 : ℚ) ^ (52 : Int) = 2 ^ (53 : Int) / 2 := by norm_num
          _ ≤ |(n : ℚ)| / 2 := by gcongr
          _ ≤ x.significand * 2 ^ x.exponent := by rwa [← value_magnitude]
          _ < 2 ^ (53 : Int) * 2 ^ x.exponent := by gcongr
          _ = 2 ^ (x.exponent + 53) := by rw [← zpow_add₀ two_ne_zero, add_comm]
      have := lt_of_zpow_lt hlt
      omega
    obtain ⟨j, hj⟩ := Int.eq_ofNat_of_zero_le hexponent
    refine ⟨x.significand * 2 ^ j, ?_⟩
    rw [value_magnitude, hj, zpow_natCast]
    push_cast
    rfl

/-- The whole part of a number whose size is a natural number. -/
theorem wholePart_eq {x : Binary64} {m : Nat} (h : x.magnitude.value = m) : x.wholePart = m := by
  have hden : (x.magnitude.den : ℚ) ≠ 0 := Nat.cast_ne_zero.2 x.den_magnitude_pos.ne'
  rw [Ratio.value, div_eq_iff hden] at h
  have hnum : x.magnitude.num = m * x.magnitude.den := mod_cast h
  rw [wholePart, hnum, Nat.mul_div_cancel _ x.den_magnitude_pos]

/-- An integer of 53 bits is a number. -/
theorem exists_ofInt?_exact (h : n.natAbs < significandBound) :
    ∃ x, ofInt? n = some x ∧ x.value = n := by
  have hn : n.natAbs < 2 ^ 1023 := h.trans (by decide +kernel)
  obtain ⟨x, hx, -⟩ := exists_ofInt? hn
  have hbits : n.natAbs = n.natAbs * 2 ^ 0 := by rw [pow_zero, Nat.mul_one]
  exact ⟨x, hx, (value_eq_iff_of_ofInt? hn hx).2 ⟨n.natAbs, h, 0, hbits⟩⟩

end

/-! ### Sums and products -/

section

variable {x y : Binary64} {n : Int}

/-- The value of a float, with the denominator of its magnitude. -/
theorem value_eq_div (x : Binary64) : x.value = x.signedNum / x.magnitude.den := by
  rw [value, signedNum, Ratio.value, signed]
  split
  · rw [Int.cast_neg, Int.cast_natCast, neg_div]
  · rw [Int.cast_natCast]

/-- A sum that is not too great is rounded to a number that is nearest to it. -/
theorem exists_add? (h : |x.value + y.value| < 2 ^ (1023 : Int)) :
    ∃ z, x.add? y = some z ∧ z.IsNearest (x.value + y.value) := by
  have hx : (0 : ℚ) < x.magnitude.den := Nat.cast_pos.2 x.den_magnitude_pos
  have hy : (0 : ℚ) < y.magnitude.den := Nat.cast_pos.2 y.den_magnitude_pos
  set sum : Int := x.signedNum * y.magnitude.den + y.signedNum * x.magnitude.den with hsum
  have hvalue : x.value + y.value = sum / (x.magnitude.den * y.magnitude.den) := by
    rw [value_eq_div, value_eq_div, div_add_div _ _ hx.ne' hy.ne', hsum]
    push_cast
    ring
  have hratio : (⟨sum.natAbs, x.magnitude.den * y.magnitude.den⟩ : Ratio).value =
      |x.value + y.value| := by
    rw [hvalue, abs_div, abs_of_pos (mul_pos hx hy), Ratio.value, Nat.cast_natAbs, Int.cast_abs,
      Nat.cast_mul]
  have hsigned : signed (if sum = 0 then x.negative && y.negative else decide (sum < 0))
      |x.value + y.value| = x.value + y.value := by
    refine signed_abs fun hne => ?_
    have hnonzero : sum ≠ 0 := by
      rintro hzero
      exact hne (by rw [hvalue, hzero, Int.cast_zero, zero_div])
    rw [if_neg hnonzero, decide_eq_true_iff, hvalue, div_lt_iff₀ (mul_pos hx hy), zero_mul,
      Int.cast_lt_zero]
  obtain ⟨z, hz, -, hnearest, -⟩ := exists_ofRatio?
    (if sum = 0 then x.negative && y.negative else decide (sum < 0))
    (r := ⟨sum.natAbs, x.magnitude.den * y.magnitude.den⟩)
    (Nat.mul_pos x.den_magnitude_pos y.den_magnitude_pos) (hratio ▸ h)
  rw [hratio, hsigned] at hnearest
  exact ⟨z, hz, hnearest⟩

/-- A sum that is an integer of 53 bits is exact. -/
theorem exists_add?_exact (h : x.value + y.value = n) (hn : n.natAbs < significandBound) :
    ∃ z, x.add? y = some z ∧ z.value = n := by
  obtain ⟨w, -, hw⟩ := exists_ofInt?_exact hn
  have hlt : |x.value + y.value| < 2 ^ (1023 : Int) := by
    rw [h, ← Int.cast_abs, Int.abs_eq_natAbs, Int.cast_natCast]
    exact_mod_cast hn.trans (by decide +kernel)
  obtain ⟨z, hz, hnearest⟩ := exists_add? hlt
  exact ⟨z, hz, (h ▸ hnearest).value_eq hw⟩

/-- The square of an integer is rounded once. -/
theorem mul?_self (h : x.value = n) : x.mul? x = ofInt? (n ^ 2) := by
  have hden : (0 : ℚ) < x.magnitude.den := Nat.cast_pos.2 x.den_magnitude_pos
  have hsign : decide (n ^ 2 < 0) = false := decide_eq_false (not_lt.2 (sq_nonneg n))
  have hvalue : (⟨x.magnitude.num * x.magnitude.num, x.magnitude.den * x.magnitude.den⟩ :
      Ratio).value = (⟨(n ^ 2).natAbs, 1⟩ : Ratio).value := by
    calc (⟨x.magnitude.num * x.magnitude.num, x.magnitude.den * x.magnitude.den⟩ : Ratio).value
        = x.magnitude.value * x.magnitude.value := by
          rw [Ratio.value, Ratio.value, Nat.cast_mul, Nat.cast_mul, mul_div_mul_comm]
      _ = |(n : ℚ)| * |(n : ℚ)| := by rw [← abs_value, h]
      _ = (⟨(n ^ 2).natAbs, 1⟩ : Ratio).value := by
        rw [Ratio.value, Int.natAbs_pow, Nat.cast_one, div_one, Nat.cast_pow, Nat.cast_natAbs,
          Int.cast_abs, pow_two]
  rw [mul?, ofInt?, bne_self_eq_false, hsign]
  exact ofRatio?_congr false (Nat.mul_pos x.den_magnitude_pos x.den_magnitude_pos) Nat.one_pos
    hvalue

end

end Binary64

end EvidenceSynthesis.Decimal
