import EvidenceSynthesis.Decimal.Shortest
import Mathlib.Algebra.Group.Nat.Defs

/-!
# How long the text of a number is

The shortest numeral of a number has no more than eighteen digits and a small exponent
(`Binary64.isShort_shortest`), because it is looked for on seventeen grids, which begin at the
leading place of the number.  Its layout adds a few characters (`Layout.length_write_le`), so that
no text of a number has more than twenty-six (`Binary64.length_text_le`).
-/

namespace EvidenceSynthesis.Decimal

namespace Binary64

/-! ### The leading place -/

theorem digitCount_le_iff {n k : Nat} (hk : 0 < k) : digitCount n ≤ k ↔ n < 10 ^ k :=
  Nat.length_toDigits_le_iff (by decide) hk

theorem digitCount_pos (n : Nat) : 0 < digitCount n :=
  Nat.length_toDigits_pos

theorem lt_pow_digitCount (n : Nat) : n < 10 ^ digitCount n :=
  (digitCount_le_iff (digitCount_pos n)).1 (Nat.le_refl _)

/-- A positive number has no leading zero. -/
theorem pow_digitCount_le {n : Nat} (hn : 0 < n) : 10 ^ (digitCount n - 1) ≤ n := by
  by_cases hone : digitCount n = 1
  · rw [hone]
    exact hn
  · have hpos := digitCount_pos n
    refine Nat.not_lt.1 fun hlt => ?_
    have hle := (digitCount_le_iff (by omega)).2 hlt
    omega

/-- The whole number below the inverse of a ratio below one, less one if the inverse is whole. -/
theorem inverse_bounds {num den : Nat} (hnum : 0 < num) (h : num < den) :
    0 < (den + num - 1) / num - 1 ∧ ((den + num - 1) / num - 1) * num < den := by
  have htwo : 2 ≤ (den + num - 1) / num :=
    (Nat.le_div_iff_mul_le hnum).2 (by omega)
  have hle : (den + num - 1) / num * num ≤ den + num - 1 := Nat.div_mul_le_self _ _
  refine ⟨by omega, ?_⟩
  rw [Nat.sub_one_mul]
  omega

/-- A ratio lies below the power of ten above its leading place. -/
theorem lt_of_leadingPlace {r : Ratio} (hden : 0 < r.den) :
    ∃ a b : Nat, (b : Int) - a = leadingPlace r + 1 ∧ r.num * 10 ^ a < r.den * 10 ^ b := by
  unfold leadingPlace
  split
  · refine ⟨0, digitCount (r.num / r.den), by omega, ?_⟩
    have hquotient := Nat.lt_mul_div_succ r.num hden
    have hdigits := lt_pow_digitCount (r.num / r.den)
    calc r.num * 10 ^ 0 = r.num := Nat.mul_one _
      _ < r.den * (r.num / r.den + 1) := hquotient
      _ ≤ r.den * 10 ^ digitCount (r.num / r.den) := Nat.mul_le_mul_left _ hdigits
  · rename_i hlt
    by_cases hnum : r.num = 0
    · refine ⟨0, 0, ?_, ?_⟩
      · rw [hnum, Nat.div_zero]
        rfl
      · rw [hnum]
        simpa using hden
    · obtain ⟨hpos, hbelow⟩ := inverse_bounds (Nat.pos_of_ne_zero hnum) (Nat.lt_of_not_le hlt)
      have hcount := digitCount_pos ((r.den + r.num - 1) / r.num - 1)
      refine ⟨digitCount ((r.den + r.num - 1) / r.num - 1) - 1, 0, by omega, ?_⟩
      calc r.num * 10 ^ (digitCount ((r.den + r.num - 1) / r.num - 1) - 1)
          ≤ r.num * ((r.den + r.num - 1) / r.num - 1) :=
            Nat.mul_le_mul_left _ (pow_digitCount_le hpos)
        _ = ((r.den + r.num - 1) / r.num - 1) * r.num := Nat.mul_comm _ _
        _ < r.den := hbelow
        _ = r.den * 10 ^ 0 := (Nat.mul_one _).symm

/-- The leading place is near if the parts of the ratio are not too great. -/
theorem natAbs_leadingPlace_le {r : Ratio} {k : Nat} (hnum : r.num < 10 ^ k)
    (hden : r.den ≤ 10 ^ k) (hpos : 0 < k) : (leadingPlace r).natAbs ≤ k := by
  unfold leadingPlace
  split
  · have hquotient : r.num / r.den < 10 ^ k := Nat.lt_of_le_of_lt (Nat.div_le_self _ _) hnum
    have hcount := (digitCount_le_iff hpos).2 hquotient
    omega
  · rename_i hlt
    have hinverse : (r.den + r.num - 1) / r.num - 1 < 10 ^ k := by
      by_cases hzero : r.num = 0
      · rw [hzero, Nat.div_zero]
        exact Nat.pow_pos (by decide)
      · have hone : 1 ≤ r.num := Nat.pos_of_ne_zero hzero
        obtain ⟨_, hbelow⟩ := inverse_bounds hone (Nat.lt_of_not_le hlt)
        have hmul := Nat.mul_le_mul_left ((r.den + r.num - 1) / r.num - 1) hone
        omega
    have hcount := (digitCount_le_iff hpos).2 hinverse
    omega

/-! ### Grids -/

/-- On a grid of so many places a ratio has few digits. -/
theorem scaled_lt {r : Ratio} (hden : 0 < r.den) (count : Nat) :
    (r.scaleDecimal (-(leadingPlace r - count))).num /
      (r.scaleDecimal (-(leadingPlace r - count))).den < 10 ^ (count + 1) := by
  obtain ⟨a, b, hplace, hlt⟩ := lt_of_leadingPlace hden
  cases hexponent : -(leadingPlace r - count) with
  | ofNat k =>
    have hsum : k + b = count + 1 + a := by
      have hk : (k : Int) = -(leadingPlace r - count) := hexponent.symm
      omega
    show r.num * 10 ^ k / r.den < _
    refine Nat.div_lt_of_lt_mul (Nat.lt_of_mul_lt_mul_right (a := 10 ^ a) ?_)
    calc r.num * 10 ^ k * 10 ^ a = r.num * 10 ^ a * 10 ^ k := Nat.mul_right_comm _ _ _
      _ < r.den * 10 ^ b * 10 ^ k := Nat.mul_lt_mul_of_pos_right hlt (Nat.pow_pos (by decide))
      _ = r.den * 10 ^ (count + 1) * 10 ^ a := by
        rw [Nat.mul_assoc, Nat.mul_assoc, ← Nat.pow_add, ← Nat.pow_add, Nat.add_comm b k, hsum]
  | negSucc k =>
    have hsum : b = k + 1 + (count + 1) + a := by
      have hk : -((k : Int) + 1) = -(leadingPlace r - count) := by
        rw [hexponent]
        rfl
      omega
    show r.num / (r.den * 10 ^ (k + 1)) < _
    refine Nat.div_lt_of_lt_mul (Nat.lt_of_mul_lt_mul_right (a := 10 ^ a) ?_)
    calc r.num * 10 ^ a < r.den * 10 ^ b := hlt
      _ = r.den * 10 ^ (k + 1) * 10 ^ (count + 1) * 10 ^ a := by
        rw [hsum, Nat.pow_add, Nat.pow_add, ← Nat.mul_assoc, ← Nat.mul_assoc]

/-- Rounding adds one to the whole part at most. -/
theorem round_le (r : Ratio) : r.round ≤ r.num / r.den + 1 := by
  unfold Ratio.round
  simp only
  split
  · omega
  · split <;> omega

/-- What is found on a grid has the exponent of the grid and is next to the ratio. -/
theorem nearestOnGrid_eq_some {interval : RoundingInterval} {r : Ratio} {exponent : Int}
    {numeral : ScaledDigits} (h : nearestOnGrid interval r exponent = some numeral) :
    numeral.exponent = exponent ∧
      numeral.digits ≤
        (r.scaleDecimal (-exponent)).num / (r.scaleDecimal (-exponent)).den + 1 := by
  simp only [nearestOnGrid] at h
  split at h
  · cases h
    exact ⟨rfl, round_le _⟩
  · cases h
    exact ⟨rfl, Nat.le_succ _⟩
  · cases h
    exact ⟨rfl, Nat.le_refl _⟩
  · cases h

/-- A numeral that is found is the nearest on one of the grids. -/
theorem searchGrids_eq_some {interval : RoundingInterval} {r : Ratio} {place : Int}
    {count grids : Nat} {numeral : ScaledDigits}
    (h : searchGrids interval r place count grids = some numeral) :
    ∃ further < grids,
      nearestOnGrid interval r (place - (count + further : Nat)) = some numeral := by
  induction grids generalizing count with
  | zero => cases h
  | succ grids ih =>
    rw [searchGrids] at h
    split at h
    · rename_i hfound
      cases h
      exact ⟨0, Nat.succ_pos grids, hfound⟩
    · obtain ⟨further, hfurther, hfound⟩ := ih h
      refine ⟨further + 1, Nat.succ_lt_succ hfurther, ?_⟩
      rw [Nat.add_assoc, Nat.add_comm 1 further] at hfound
      exact hfound

/-! ### The shortest numeral -/

/-- Whether a numeral has no more than eighteen digits and no great exponent. -/
structure IsShort (numeral : ScaledDigits) : Prop where
  digits : numeral.digits < 10 ^ 18
  exponent : numeral.exponent.natAbs ≤ 416

/-- The size of a number is a ratio of which neither part is too great. -/
theorem magnitude_bounds (x : Binary64) :
    x.magnitude.num < 10 ^ 400 ∧ 0 < x.magnitude.den ∧ x.magnitude.den ≤ 10 ^ 400 := by
  obtain ⟨negative, significand, exponent, hsignificand, hleast, hgreatest, _⟩ := x
  simp only [minExponent, maxExponent, significandBound] at hsignificand hleast hgreatest
  cases exponent with
  | ofNat k =>
    have hk : k ≤ 971 := Int.ofNat_le.1 hgreatest
    have hbits : significand ≤ 2 ^ 53 := Nat.le_of_lt hsignificand
    have hpow := Nat.pow_le_pow_right Nat.two_pos hk
    refine ⟨?_, Nat.one_pos, ?_⟩
    · calc significand * 2 ^ k ≤ 2 ^ 53 * 2 ^ 971 := Nat.mul_le_mul hbits hpow
        _ < 10 ^ 400 := by decide +kernel
    · show 1 ≤ 10 ^ 400
      decide +kernel
  | negSucc k =>
    have hk : k + 1 ≤ 1074 := by omega
    have hpow := Nat.pow_le_pow_right Nat.two_pos hk
    refine ⟨?_, ?_, ?_⟩
    · show significand < 10 ^ 400
      exact Nat.lt_trans (by omega : significand < 2 ^ 53) (by decide +kernel)
    · show 0 < 1 * 2 ^ (k + 1)
      rw [Nat.one_mul]
      exact Nat.pow_pos (by decide)
    · show 1 * 2 ^ (k + 1) ≤ 10 ^ 400
      rw [Nat.one_mul]
      exact Nat.le_trans hpow (by decide +kernel)

theorem isShort_shortest (x : Binary64) : IsShort x.shortest := by
  obtain ⟨hnum, hpos, hden⟩ := x.magnitude_bounds
  unfold shortest
  cases hfound : searchGrids x.roundingInterval x.magnitude (leadingPlace x.magnitude) 0 17 with
  | none => exact ⟨by decide, by decide⟩
  | some numeral =>
    obtain ⟨count, hcount, hgrid⟩ := searchGrids_eq_some hfound
    rw [Nat.zero_add] at hgrid
    obtain ⟨hexponent, hdigits⟩ := nearestOnGrid_eq_some hgrid
    have hplace := natAbs_leadingPlace_le hnum hden (by decide)
    have hscaled := scaled_lt (r := x.magnitude) hpos count
    have hpow : 10 ^ (count + 1) ≤ 10 ^ 17 := Nat.pow_le_pow_right (by decide) (by omega)
    constructor
    · show numeral.digits < 10 ^ 18
      omega
    · show numeral.exponent.natAbs ≤ 416
      omega

end Binary64

/-! ### Layouts -/

namespace Layout

open Binary64 (IsShort)

/-- Every digit is kept or counted as a stripped zero. -/
theorem length_stripZeros (digits : List Char) :
    (stripZeros digits).1.length + (stripZeros digits).2 = digits.length := by
  have hsplit := congrArg List.length
    (List.takeWhile_append_dropWhile (p := (· == '0')) (l := digits.reverse))
  rw [List.length_append, List.length_reverse] at hsplit
  simp only [stripZeros, List.length_reverse]
  omega

/-- Digits in their places take the places between them and the point besides. -/
theorem length_positional_le (digits : List Char) (exponent : Int) :
    ((positional digits exponent).length : Int) ≤
      max ((digits.length : Int) + 2) (max (digits.length + exponent + 2) (2 - exponent)) := by
  unfold positional
  dsimp only
  split
  · simp only [List.length_append, List.length_replicate, List.length_cons, List.length_nil,
      Int.ofNat_eq_natCast]
    omega
  · split
    · simp only [List.length_append, List.length_take, List.length_cons, List.length_drop]
      omega
    · simp only [List.length_append, List.length_replicate, List.length_cons]
      omega

/-- Scientific notation adds at most seven characters to the digits. -/
theorem length_scientific_le (layout : Layout) (digits : List Char) {place : Int}
    (h : place.natAbs < 10 ^ 4) : (layout.scientific digits place).length ≤ digits.length + 7 := by
  have hplace : (Nat.toDigits 10 place.natAbs).length ≤ 4 :=
    (Nat.length_toDigits_le_iff (by decide) (by decide)).2 h
  unfold scientific
  split <;> simp only [List.length_append, List.length_cons, List.length_nil] <;> omega

/-- The layout of a short numeral has no more than twenty-five characters. -/
theorem length_write_le {numeral : ScaledDigits} (h : IsShort numeral) :
    (standard.write numeral).length ≤ 25 := by
  obtain ⟨hdigits, hexponent⟩ := h
  have hlength : (Nat.toDigits 10 numeral.digits).length ≤ 18 :=
    (Nat.length_toDigits_le_iff (by decide) (by decide)).2 hdigits
  have hstripped := length_stripZeros (Nat.toDigits 10 numeral.digits)
  cases hparts : stripZeros (Nat.toDigits 10 numeral.digits) with
  | mk digits zeros =>
    rw [hparts] at hstripped
    simp only at hstripped
    have hwrite : standard.write numeral =
        if -5 ≤ numeral.exponent + zeros + digits.length - 1 ∧
            numeral.exponent + zeros + digits.length - 1 ≤ 15 then
          positional digits (numeral.exponent + zeros)
        else
          standard.scientific digits (numeral.exponent + zeros + digits.length - 1) := by
      simp only [write, hparts]
      rfl
    rw [hwrite]
    by_cases hplace : -5 ≤ numeral.exponent + zeros + digits.length - 1 ∧
        numeral.exponent + zeros + digits.length - 1 ≤ 15
    · have hpositional := length_positional_le digits (numeral.exponent + zeros)
      rw [if_pos hplace]
      omega
    · have hsmall : (numeral.exponent + zeros + digits.length - 1).natAbs < 10 ^ 4 := by omega
      have hscientific := standard.length_scientific_le digits hsmall
      rw [if_neg hplace]
      omega

end Layout

/-- The text of a number has no more than twenty-six characters. -/
theorem Binary64.length_text_le (x : Binary64) : x.text.toList.length ≤ 26 := by
  have hwritten := Layout.length_write_le x.isShort_shortest
  have hsize : (if x.isZero then ['0', '.', '0'] else Layout.standard.write x.shortest).length ≤
      25 := by
    split
    · decide
    · exact hwritten
  rw [text, String.toList_ofList]
  split
  · rw [List.length_cons]
    omega
  · omega

end EvidenceSynthesis.Decimal
