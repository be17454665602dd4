import EvidenceSynthesis.Json.Document
import EvidenceSynthesis.Json.Writer
import Mathlib.Data.List.Basic
import Mathlib.Data.List.TakeDrop
import Mathlib.Data.List.TakeWhile

/-!
# Numerals and their texts

Two facts about the reader of numerals are needed to read back what was written.  What it accepts
consists of characters of numerals and starts with a sign or a digit (`Numeral.shape_of_ofChars?`),
so that the tokens of a text are cut where the number ends.  And it accepts the text of an integer,
with that integer as the value if it fits a word (`Numeral.ofChars?_integer`).

The integers that come out of a document fit a word (`Numeral.fits_of_value?`), so that they can be
put into one again.
-/

namespace EvidenceSynthesis.Json

open EvidenceSynthesis.Decimal (Binary64)
open Token (isNumeralChar)

namespace Numeral

/-! ### What a numeral consists of -/

/-- Whether `rest` is what follows some characters of numerals in `chars`. -/
def Precedes (chars rest : List Char) : Prop :=
  ∃ part, chars = part ++ rest ∧ ∀ c ∈ part, isNumeralChar c = true

theorem Precedes.refl (chars : List Char) : Precedes chars chars :=
  ⟨[], rfl, by simp⟩

theorem Precedes.cons {c : Char} {chars rest : List Char} (hc : isNumeralChar c = true)
    (h : Precedes chars rest) : Precedes (c :: chars) rest := by
  obtain ⟨part, rfl, hpart⟩ := h
  exact ⟨c :: part, rfl, List.forall_mem_cons.2 ⟨hc, hpart⟩⟩

theorem Precedes.trans {chars middle rest : List Char} (h : Precedes chars middle)
    (hmiddle : Precedes middle rest) : Precedes chars rest := by
  obtain ⟨part, rfl, hpart⟩ := h
  obtain ⟨others, rfl, hothers⟩ := hmiddle
  refine ⟨part ++ others, (List.append_assoc _ _ _).symm, ?_⟩
  intro c hc
  exact (List.mem_append.1 hc).elim (hpart c) (hothers c)

theorem isNumeralChar_of_isDigit {c : Char} (h : c.isDigit = true) : isNumeralChar c = true := by
  simp [isNumeralChar, h]

theorem precedes_takeSign (chars : List Char) : Precedes chars (takeSign chars).2 := by
  unfold takeSign
  split
  · exact .cons rfl (.refl _)
  · exact .refl _

/-- Digits are taken as far as they go, and there must be one. -/
theorem takeDigits?_eq_some_iff {chars digits rest : List Char} :
    takeDigits? chars = some (digits, rest) ↔
      digits = chars.takeWhile Char.isDigit ∧ rest = chars.dropWhile Char.isDigit ∧
        digits ≠ [] := by
  rw [takeDigits?, List.span_eq_takeWhile_dropWhile]
  simp only [Option.ite_none_left_eq_some, List.isEmpty_iff, Option.some.injEq, Prod.mk.injEq]
  constructor
  · rintro ⟨hne, rfl, rfl⟩
    exact ⟨rfl, rfl, hne⟩
  · rintro ⟨rfl, rfl, hne⟩
    exact ⟨hne, rfl, rfl⟩

/-- What digits leave over follows characters of a numeral. -/
theorem precedes_of_takeDigits? {chars digits rest : List Char}
    (h : takeDigits? chars = some (digits, rest)) : Precedes chars rest := by
  obtain ⟨rfl, rfl, _⟩ := takeDigits?_eq_some_iff.1 h
  refine ⟨_, List.takeWhile_append_dropWhile.symm, fun c hc => ?_⟩
  exact isNumeralChar_of_isDigit (List.mem_takeWhile_imp hc)

theorem head_of_takeDigits? {chars digits rest : List Char}
    (h : takeDigits? chars = some (digits, rest)) :
    ∃ c tail, chars = c :: tail ∧ c.isDigit = true := by
  obtain ⟨rfl, _, hne⟩ := takeDigits?_eq_some_iff.1 h
  cases chars with
  | nil => exact absurd rfl hne
  | cons c tail =>
    refine ⟨c, tail, rfl, ?_⟩
    by_contra hc
    exact hne (List.takeWhile_cons_of_neg hc)

theorem takeDigits?_of_takeWhole? {chars : List Char} {result : List Char × List Char}
    (h : takeWhole? chars = some result) : takeDigits? chars = some result := by
  obtain ⟨digits, hdigits, h⟩ := Option.bind_eq_some_iff.1 h
  exact hdigits.trans (Option.ite_none_left_eq_some.1 h).2

theorem precedes_of_takeFraction? {chars rest : List Char} {fraction : Option (List Char)}
    (h : takeFraction? chars = some (fraction, rest)) : Precedes chars rest := by
  unfold takeFraction? at h
  split at h
  · obtain ⟨⟨digits, left⟩, hdigits, heq⟩ := Option.map_eq_some_iff.1 h
    cases heq
    exact .cons rfl (precedes_of_takeDigits? hdigits)
  · cases h
    exact .refl _

theorem precedes_of_takeExponentDigits? {chars rest : List Char} {exponent : Int}
    (h : takeExponentDigits? chars = some (exponent, rest)) : Precedes chars rest := by
  unfold takeExponentDigits? at h
  split at h
  all_goals
    obtain ⟨⟨digits, left⟩, hdigits, heq⟩ := Option.map_eq_some_iff.1 h
    cases heq
  · exact .cons rfl (precedes_of_takeDigits? hdigits)
  · exact .cons rfl (precedes_of_takeDigits? hdigits)
  · exact precedes_of_takeDigits? hdigits

/-- What an exponent leaves over follows characters of a numeral. -/
theorem precedes_of_takeExponent? {chars rest : List Char} {exponent : Option Int}
    (h : takeExponent? chars = some (exponent, rest)) : Precedes chars rest := by
  unfold takeExponent? at h
  split at h
  · obtain ⟨⟨digits, left⟩, hdigits, heq⟩ := Option.map_eq_some_iff.1 h
    cases heq
    exact .cons rfl (precedes_of_takeExponentDigits? hdigits)
  · obtain ⟨⟨digits, left⟩, hdigits, heq⟩ := Option.map_eq_some_iff.1 h
    cases heq
    exact .cons rfl (precedes_of_takeExponentDigits? hdigits)
  · cases h
    exact .refl _

/-- Whether characters are those of a numeral, as far as can be told from each of them and from
the first. -/
structure HasShape (chars : List Char) : Prop where
  /-- All of them occur in numerals. -/
  every : ∀ c ∈ chars, isNumeralChar c = true
  /-- The first is a sign or a digit. -/
  first : ∃ c tail, chars = c :: tail ∧ (c = '-' ∨ c.isDigit = true)

/-- What is read as a numeral has the shape of one. -/
theorem shape_of_ofChars? {chars : List Char} {numeral : Numeral}
    (h : ofChars? chars = some numeral) : HasShape chars := by
  obtain ⟨⟨whole, left⟩, hwhole, h⟩ := Option.bind_eq_some_iff.1 h
  obtain ⟨⟨fraction, behind⟩, hfraction, h⟩ := Option.bind_eq_some_iff.1 h
  obtain ⟨⟨exponent, rest⟩, hexponent, h⟩ := Option.bind_eq_some_iff.1 h
  have hdigits := takeDigits?_of_takeWhole? hwhole
  have hempty : rest = [] := by
    by_contra hne
    simp [hne] at h
  constructor
  · have hall : Precedes chars rest :=
      (precedes_takeSign chars).trans <| (precedes_of_takeDigits? hdigits).trans <|
        (precedes_of_takeFraction? hfraction).trans (precedes_of_takeExponent? hexponent)
    obtain ⟨part, rfl, hpart⟩ := hall
    simpa [hempty] using hpart
  · split at hdigits
    · exact ⟨_, _, rfl, Or.inl rfl⟩
    · obtain ⟨c, tail, hchars, hc⟩ := head_of_takeDigits? hdigits
      exact ⟨c, tail, hchars, Or.inr hc⟩

/-! ### Integers -/

/-- Whether an integer is a word, unsigned or signed. -/
def Fits (n : Int) : Prop :=
  -(Word.bound63 : Int) ≤ n ∧ n < Word.bound64

instance (n : Int) : Decidable (Fits n) :=
  inferInstanceAs (Decidable (_ ∧ _))

/-- A leading zero is the only digit. -/
theorem toDigits_eq_zero_of_head? {n : Nat} (h : (Nat.toDigits 10 n).head? = some '0') :
    n = 0 := by
  induction n using Nat.strongRecOn with
  | ind n ih =>
    rw [Nat.toDigits_eq_if (by decide)] at h
    split at h
    · rename_i hlt
      have hdigit : ∀ d < 10, Nat.digitChar d = '0' → d = 0 := by decide
      exact hdigit n hlt (by simpa using h)
    · rename_i hge
      rw [List.head?_append_of_ne_nil _ Nat.toDigits_ne_nil] at h
      have hquotient := ih (n / 10) (by omega) h
      omega

/-- The digits of a number are a whole part, and nothing is left over. -/
theorem takeWhole?_toDigits (n : Nat) :
    takeWhole? (Nat.toDigits 10 n) = some (Nat.toDigits 10 n, []) := by
  have hall : ∀ c ∈ Nat.toDigits 10 n, c.isDigit = true := fun c hc =>
    Nat.isDigit_of_mem_toDigits (by decide) (by decide) hc
  have hdigits : takeDigits? (Nat.toDigits 10 n) = some (Nat.toDigits 10 n, []) := by
    refine takeDigits?_eq_some_iff.2 ⟨?_, ?_, Nat.toDigits_ne_nil⟩
    · exact (List.takeWhile_eq_self_iff.2 hall).symm
    · exact (List.dropWhile_eq_nil_iff.2 hall).symm
  rw [takeWhole?, hdigits]
  simp only [Option.bind_some]
  rw [if_neg]
  rintro ⟨hzero, hlength⟩
  rw [toDigits_eq_zero_of_head? hzero] at hlength
  exact hlength rfl

theorem takeSign_toDigits (n : Nat) :
    takeSign (Nat.toDigits 10 n) = (false, Nat.toDigits 10 n) := by
  cases hdigits : Nat.toDigits 10 n with
  | nil => rfl
  | cons c rest =>
    have hc : c.isDigit = true :=
      Nat.isDigit_of_mem_toDigits (by decide) (by decide) (hdigits ▸ List.mem_cons_self)
    have hne : c ≠ '-' := by
      rintro rfl
      exact absurd hc (by decide)
    unfold takeSign
    split
    · rename_i heq
      exact absurd (List.cons.inj heq).1 hne
    · rfl

/-- The text of an integer is its digits, with a sign in front of those of a negative one. -/
theorem toList_toString (n : Int) :
    (toString n).toList =
      if n < 0 then '-' :: Nat.toDigits 10 n.natAbs else Nat.toDigits 10 n.natAbs := by
  cases n with
  | ofNat m =>
    rw [if_neg (by simp)]
    show (Nat.repr m).toList = _
    rw [Nat.repr_eq_ofList_toDigits, String.toList_ofList]
    rfl
  | negSucc m =>
    rw [if_pos (Int.negSucc_lt_zero m)]
    show ("-" ++ Nat.repr (m + 1)).toList = _
    simp [Nat.repr_eq_ofList_toDigits]

/-- The text of an integer is read as its sign and its digits. -/
theorem ofChars?_integer (n : Int) :
    ofChars? (toString n).toList = some ⟨n < 0, Nat.toDigits 10 n.natAbs, none, none⟩ := by
  rw [toList_toString]
  by_cases hneg : n < 0
  · rw [if_pos hneg, decide_eq_true hneg, ofChars?]
    simp only [takeSign, takeWhole?_toDigits]
    rfl
  · rw [if_neg hneg, decide_eq_false hneg, ofChars?, takeSign_toDigits]
    simp only [takeWhole?_toDigits]
    rfl

theorem digitsValue_toDigits (n : Nat) : digitsValue (Nat.toDigits 10 n) = n :=
  Nat.ofDigitChars_ten_toDigits

/-- The digits of an integer that fits a word have that integer as their value. -/
theorem integer?_of_fits {n : Int} (h : Fits n) :
    integer? ⟨n < 0, Nat.toDigits 10 n.natAbs, none, none⟩ = some n := by
  obtain ⟨hlow, hhigh⟩ := h
  simp only [Word.bound63, Word.bound64] at hlow hhigh
  simp only [integer?, digitsValue_toDigits, Word.bound63, Word.bound64, Option.isSome_none,
    Bool.false_eq_true, or_self, if_false, decide_eq_true_eq]
  by_cases hneg : n < 0
  · rw [if_pos hneg, if_pos (by omega)]
    congr 1
    omega
  · rw [if_neg hneg, if_pos (by omega)]
    congr 1
    omega

/-- The integer that a numeral writes fits a word. -/
theorem fits_of_integer? {numeral : Numeral} {n : Int} (h : numeral.integer? = some n) :
    Fits n := by
  unfold integer? at h
  simp only [Fits, Word.bound63, Word.bound64] at *
  split at h
  · cases h
  · split at h
    · obtain ⟨hsize, heq⟩ := Option.ite_none_right_eq_some.1 h
      cases heq
      omega
    · obtain ⟨hsize, heq⟩ := Option.ite_none_right_eq_some.1 h
      cases heq
      omega

/-- The value of a numeral is a number. -/
theorem value?_eq_some {numeral : Numeral} {value : Value} (h : numeral.value? = some value) :
    (∃ n, value = .integer n) ∨ ∃ x, value = .float x := by
  unfold value? at h
  split at h
  · cases h
    exact Or.inl ⟨_, rfl⟩
  · obtain ⟨x, _, rfl⟩ := Option.map_eq_some_iff.1 h
    exact Or.inr ⟨x, rfl⟩

/-- The value of a numeral, if it is an integer, fits a word. -/
theorem fits_of_value? {numeral : Numeral} {n : Int} (h : numeral.value? = some (.integer n)) :
    Fits n := by
  unfold value? at h
  split at h
  · rename_i m hm
    cases h
    exact fits_of_integer? hm
  · obtain ⟨x, _, hx⟩ := Option.map_eq_some_iff.1 h
    cases hx

end Numeral

end EvidenceSynthesis.Json
