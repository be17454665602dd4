import EvidenceSynthesis.Text.Utf8

/-!
# Texts are read back from their octets

The octets of a text are those of its characters, one after another.  Each character is read back
from its octets, whatever follows them (`Text.Utf8.head_encodeChar`), and so is the text
(`Text.Utf8.decode_encode`).  Conversely a character is read from its own octets only
(`Text.Utf8.isSpelledBy_of_head`), so that octets are read as a text exactly if they are the octets
of that text (`Text.Utf8.decode_eq_ok_iff`).
-/

namespace EvidenceSynthesis.Text.Utf8

open String (utf8EncodeChar)

/-! ### Octets as numbers -/

/-- The range of a continuation octet. -/
theorem isContinuation_iff {b : UInt8} :
    isContinuation b = true ↔ 0x80 ≤ b.toNat ∧ b.toNat ≤ 0xBF := by
  simp [isContinuation, UInt8.le_iff_toNat_le]

/-- The range of the second of three octets: nothing too small, and no surrogates. -/
theorem isSecondOfThree_iff {lead b : UInt8} :
    isSecondOfThree lead b = true ↔
      (if lead.toNat = 0xE0 then 0xA0 else 0x80) ≤ b.toNat ∧
        b.toNat ≤ (if lead.toNat = 0xED then 0x9F else 0xBF) := by
  simp only [isSecondOfThree, Bool.and_eq_true, decide_eq_true_eq, UInt8.le_iff_toNat_le,
    beq_iff_eq, ← UInt8.toNat_inj]
  split <;> split <;> simp_all

/-- The range of the second of four octets: nothing too small, and nothing too great. -/
theorem isSecondOfFour_iff {lead b : UInt8} :
    isSecondOfFour lead b = true ↔
      (if lead.toNat = 0xF0 then 0x90 else 0x80) ≤ b.toNat ∧
        b.toNat ≤ (if lead.toNat = 0xF4 then 0x8F else 0xBF) := by
  simp only [isSecondOfFour, Bool.and_eq_true, decide_eq_true_eq, UInt8.le_iff_toNat_le,
    beq_iff_eq, ← UInt8.toNat_inj]
  split <;> split <;> simp_all

/-- Which kind of character an octet leads. -/
theorem head_eq (lead : UInt8) (rest : Octets) :
    head lead rest =
      if lead.toNat < 0x80 then .scalar (Char.ofNat lead.toNat) 1
      else if lead.toNat < 0xC2 then .invalid 1
      else if lead.toNat < 0xE0 then headOfTwo lead rest
      else if lead.toNat < 0xF0 then headOfThree lead rest
      else if lead.toNat < 0xF5 then headOfFour lead rest
      else .invalid 1 := by
  simp only [head, UInt8.lt_iff_toNat_lt]
  rfl

/-! ### Characters -/

theorem toNat_ofNat_of_lt {n : Nat} (h : n < 256) : (UInt8.ofNat n).toNat = n := by
  simp [Nat.mod_eq_of_lt h]

theorem headOfTwo_encoded {v : Nat} (h : v < 0x800) (rest : Octets) :
    headOfTwo (UInt8.ofNat (v / 64 + 192)) (UInt8.ofNat (v % 64 + 128) :: rest) =
      .scalar (Char.ofNat v) 2 := by
  have hlead := toNat_ofNat_of_lt (n := v / 64 + 192) (by omega)
  have hb := toNat_ofNat_of_lt (n := v % 64 + 128) (by omega)
  have hfollows : isContinuation (UInt8.ofNat (v % 64 + 128)) = true :=
    isContinuation_iff.2 (by omega)
  have hvalue : (v / 64 + 192) % 32 * 64 + (v % 64 + 128) % 64 = v := by omega
  rw [headOfTwo, if_pos hfollows, hlead, tailBits, hb, hvalue]

theorem headOfThree_encoded {v : Nat} (hlow : 0x800 ≤ v) (hhigh : v < 0x10000)
    (hsurrogate : v < 0xD800 ∨ 0xDFFF < v) (rest : Octets) :
    headOfThree (UInt8.ofNat (v / 4096 + 224)) (UInt8.ofNat (v / 64 % 64 + 128) ::
        UInt8.ofNat (v % 64 + 128) :: rest) =
      .scalar (Char.ofNat v) 3 := by
  have hlead := toNat_ofNat_of_lt (n := v / 4096 + 224) (by omega)
  have hb := toNat_ofNat_of_lt (n := v / 64 % 64 + 128) (by omega)
  have hc := toNat_ofNat_of_lt (n := v % 64 + 128) (by omega)
  have hsecond : isSecondOfThree (UInt8.ofNat (v / 4096 + 224))
      (UInt8.ofNat (v / 64 % 64 + 128)) = true := by
    rw [isSecondOfThree_iff, hlead, hb]
    split <;> split <;> omega
  have hthird : isContinuation (UInt8.ofNat (v % 64 + 128)) = true :=
    isContinuation_iff.2 (by omega)
  have hvalue : ((v / 4096 + 224) % 16 * 64 + (v / 64 % 64 + 128) % 64) * 64 +
      (v % 64 + 128) % 64 = v := by omega
  simp only [headOfThree]
  rw [if_pos hsecond, if_pos hthird, hlead, tailBits, tailBits, hb, hc, hvalue]

theorem headOfFour_encoded {v : Nat} (hlow : 0x10000 ≤ v) (hhigh : v < 0x110000)
    (rest : Octets) :
    headOfFour (UInt8.ofNat (v / 262144 + 240)) (UInt8.ofNat (v / 4096 % 64 + 128) ::
        UInt8.ofNat (v / 64 % 64 + 128) :: UInt8.ofNat (v % 64 + 128) :: rest) =
      .scalar (Char.ofNat v) 4 := by
  have hlead := toNat_ofNat_of_lt (n := v / 262144 + 240) (by omega)
  have hb := toNat_ofNat_of_lt (n := v / 4096 % 64 + 128) (by omega)
  have hc := toNat_ofNat_of_lt (n := v / 64 % 64 + 128) (by omega)
  have hd := toNat_ofNat_of_lt (n := v % 64 + 128) (by omega)
  have hsecond : isSecondOfFour (UInt8.ofNat (v / 262144 + 240))
      (UInt8.ofNat (v / 4096 % 64 + 128)) = true := by
    rw [isSecondOfFour_iff, hlead, hb]
    split <;> split <;> omega
  have hthird : isContinuation (UInt8.ofNat (v / 64 % 64 + 128)) = true :=
    isContinuation_iff.2 (by omega)
  have hfourth : isContinuation (UInt8.ofNat (v % 64 + 128)) = true :=
    isContinuation_iff.2 (by omega)
  have hvalue : (((v / 262144 + 240) % 8 * 64 + (v / 4096 % 64 + 128) % 64) * 64 +
      (v / 64 % 64 + 128) % 64) * 64 + (v % 64 + 128) % 64 = v := by omega
  simp only [headOfFour]
  rw [if_pos hsecond, if_pos hthird, if_pos hfourth, hlead, tailBits, tailBits, tailBits, hb, hc,
    hd, hvalue]

/-- The octets of the character with a code point. -/
theorem encodeChar_ofNat {v : Nat} (h : v.isValidChar) :
    utf8EncodeChar (Char.ofNat v) =
      if v ≤ 0x7F then [UInt8.ofNat v]
      else if v ≤ 0x7FF then
        [UInt8.ofNat (v / 64 % 32 + 192), UInt8.ofNat (v % 64 + 128)]
      else if v ≤ 0xFFFF then
        [UInt8.ofNat (v / 4096 % 16 + 224), UInt8.ofNat (v / 64 % 64 + 128),
          UInt8.ofNat (v % 64 + 128)]
      else
        [UInt8.ofNat (v / 262144 % 8 + 240), UInt8.ofNat (v / 4096 % 64 + 128),
          UInt8.ofNat (v / 64 % 64 + 128), UInt8.ofNat (v % 64 + 128)] := by
  rw [Char.ofNat, dif_pos h]
  rfl

/-- At the octets of a character stands that character, whatever follows. -/
theorem head_encodeChar (c : Char) (rest : Octets) :
    ∃ lead others, utf8EncodeChar c = lead :: others ∧
      head lead (others ++ rest) = .scalar c (others.length + 1) := by
  have hvalid : c.toNat < 0xD800 ∨ 0xDFFF < c.toNat ∧ c.toNat < 0x110000 := c.valid
  have hchar := Char.ofNat_toNat c
  have hencoded := encodeChar_ofNat hvalid
  rw [hchar] at hencoded
  rw [hencoded]
  generalize c.toNat = v at *
  subst hchar
  split
  · have hlead := toNat_ofNat_of_lt (n := v) (by omega)
    refine ⟨_, _, rfl, ?_⟩
    rw [head_eq, hlead, if_pos (by omega)]
    rfl
  · split
    · have hlead := toNat_ofNat_of_lt (n := v / 64 + 192) (by omega)
      have hdigit : v / 64 % 32 = v / 64 := by omega
      refine ⟨_, _, rfl, ?_⟩
      rw [hdigit, head_eq, hlead, if_neg (by omega), if_neg (by omega), if_pos (by omega)]
      exact headOfTwo_encoded (by omega) rest
    · split
      · have hlead := toNat_ofNat_of_lt (n := v / 4096 + 224) (by omega)
        have hdigit : v / 4096 % 16 = v / 4096 := by omega
        refine ⟨_, _, rfl, ?_⟩
        rw [hdigit, head_eq, hlead, if_neg (by omega), if_neg (by omega), if_neg (by omega),
          if_pos (by omega)]
        exact headOfThree_encoded (by omega) (by omega) (by omega) rest
      · have hlead := toNat_ofNat_of_lt (n := v / 262144 + 240) (by omega)
        have hdigit : v / 262144 % 8 = v / 262144 := by omega
        refine ⟨_, _, rfl, ?_⟩
        rw [hdigit, head_eq, hlead, if_neg (by omega), if_neg (by omega), if_neg (by omega),
          if_neg (by omega), if_pos (by omega)]
        exact headOfFour_encoded (by omega) (by omega) rest

/-! ### Characters, read from their octets -/

theorem encodeChar_of_two {lead b : UInt8} (hlow : 0xC2 ≤ lead.toNat) (hhigh : lead.toNat < 0xE0)
    (hb : isContinuation b = true) :
    utf8EncodeChar (Char.ofNat (lead.toNat % 32 * 64 + tailBits b)) = [lead, b] := by
  rw [isContinuation_iff] at hb
  obtain ⟨v, hv⟩ : ∃ v, v = lead.toNat % 32 * 64 + tailBits b := ⟨_, rfl⟩
  rw [tailBits] at hv
  have hlead : v / 64 % 32 + 192 = lead.toNat := by omega
  have hsecond : v % 64 + 128 = b.toNat := by omega
  have hvalid : v.isValidChar := .inl (by omega)
  rw [tailBits, ← hv, encodeChar_ofNat hvalid, if_neg (by omega), if_pos (by omega), hlead, hsecond,
    UInt8.ofNat_toNat, UInt8.ofNat_toNat]

theorem encodeChar_of_three {lead b c : UInt8} (hlow : 0xE0 ≤ lead.toNat)
    (hhigh : lead.toNat < 0xF0) (hb : isSecondOfThree lead b = true)
    (hc : isContinuation c = true) :
    utf8EncodeChar (Char.ofNat ((lead.toNat % 16 * 64 + tailBits b) * 64 + tailBits c)) =
      [lead, b, c] := by
  rw [isContinuation_iff] at hc
  rw [isSecondOfThree_iff] at hb
  obtain ⟨v, hv⟩ : ∃ v, v = (lead.toNat % 16 * 64 + tailBits b) * 64 + tailBits c := ⟨_, rfl⟩
  rw [tailBits, tailBits] at hv
  have hcontinues : 0x80 ≤ b.toNat ∧ b.toNat ≤ 0xBF := by split at hb <;> split at hb <;> omega
  have hlead : v / 4096 % 16 + 224 = lead.toNat := by omega
  have hsecond : v / 64 % 64 + 128 = b.toNat := by omega
  have hthird : v % 64 + 128 = c.toNat := by omega
  -- neither an overlong form nor a surrogate: the second octet after `0xE0` and `0xED`
  have hrange : 0x800 ≤ v ∧ v < 0x10000 ∧ (v < 0xD800 ∨ 0xDFFF < v) := by
    split at hb <;> split at hb <;> omega
  have hvalid : v.isValidChar := by
    unfold Nat.isValidChar
    omega
  rw [tailBits, tailBits, ← hv, encodeChar_ofNat hvalid, if_neg (by omega), if_neg (by omega),
    if_pos (by omega), hlead, hsecond, hthird, UInt8.ofNat_toNat, UInt8.ofNat_toNat,
    UInt8.ofNat_toNat]

theorem encodeChar_of_four {lead b c d : UInt8} (hlow : 0xF0 ≤ lead.toNat)
    (hhigh : lead.toNat < 0xF5) (hb : isSecondOfFour lead b = true)
    (hc : isContinuation c = true) (hd : isContinuation d = true) :
    utf8EncodeChar (Char.ofNat
        (((lead.toNat % 8 * 64 + tailBits b) * 64 + tailBits c) * 64 + tailBits d)) =
      [lead, b, c, d] := by
  rw [isContinuation_iff] at hc hd
  rw [isSecondOfFour_iff] at hb
  obtain ⟨v, hv⟩ : ∃ v,
      v = ((lead.toNat % 8 * 64 + tailBits b) * 64 + tailBits c) * 64 + tailBits d := ⟨_, rfl⟩
  rw [tailBits, tailBits, tailBits] at hv
  have hcontinues : 0x80 ≤ b.toNat ∧ b.toNat ≤ 0xBF := by split at hb <;> split at hb <;> omega
  have hlead : v / 262144 % 8 + 240 = lead.toNat := by omega
  have hsecond : v / 4096 % 64 + 128 = b.toNat := by omega
  have hthird : v / 64 % 64 + 128 = c.toNat := by omega
  have hfourth : v % 64 + 128 = d.toNat := by omega
  -- neither an overlong form nor a code point that is too great: the second octet after `0xF0`
  -- and `0xF4`
  have hrange : 0x10000 ≤ v ∧ v < 0x110000 := by split at hb <;> split at hb <;> omega
  have hvalid : v.isValidChar := .inr (by omega)
  rw [tailBits, tailBits, tailBits, ← hv, encodeChar_ofNat hvalid, if_neg (by omega),
    if_neg (by omega), if_neg (by omega), hlead, hsecond, hthird, hfourth, UInt8.ofNat_toNat,
    UInt8.ofNat_toNat, UInt8.ofNat_toNat, UInt8.ofNat_toNat]

/-- Whether a character of `width` octets has the octet `lead` and the first ones of `rest` for
its own. -/
def IsSpelledBy (c : Char) (width : Nat) (lead : UInt8) (rest : Octets) : Prop :=
  ∃ others tail, rest = others ++ tail ∧ width = others.length + 1 ∧
    utf8EncodeChar c = lead :: others

/-- A character read from two octets is spelled by them. -/
theorem isSpelledBy_of_headOfTwo {lead : UInt8} {rest : Octets} {c : Char} {width : Nat}
    (hlow : 0xC2 ≤ lead.toNat) (hhigh : lead.toNat < 0xE0)
    (h : headOfTwo lead rest = .scalar c width) : IsSpelledBy c width lead rest := by
  cases rest with
  | nil => cases h
  | cons b tail =>
    rw [headOfTwo] at h
    split at h
    · rename_i hb
      cases h
      exact ⟨[b], tail, rfl, rfl, encodeChar_of_two hlow hhigh hb⟩
    · cases h

theorem isSpelledBy_of_headOfThree {lead : UInt8} {rest : Octets} {c : Char} {width : Nat}
    (hlow : 0xE0 ≤ lead.toNat) (hhigh : lead.toNat < 0xF0)
    (h : headOfThree lead rest = .scalar c width) : IsSpelledBy c width lead rest := by
  unfold headOfThree at h
  split at h
  · cases h
  · rename_i b _
    split at h
    · rename_i hb
      split at h
      · cases h
      · rename_i c tail
        split at h
        · rename_i hc
          cases h
          exact ⟨[b, c], tail, rfl, rfl, encodeChar_of_three hlow hhigh hb hc⟩
        · cases h
    · cases h

theorem isSpelledBy_of_headOfFour {lead : UInt8} {rest : Octets} {c : Char} {width : Nat}
    (hlow : 0xF0 ≤ lead.toNat) (hhigh : lead.toNat < 0xF5)
    (h : headOfFour lead rest = .scalar c width) : IsSpelledBy c width lead rest := by
  unfold headOfFour at h
  split at h
  · cases h
  · rename_i b _
    split at h
    · rename_i hb
      split at h
      · cases h
      · rename_i c _
        split at h
        · rename_i hc
          split at h
          · cases h
          · rename_i d tail
            split at h
            · rename_i hd
              cases h
              exact ⟨[b, c, d], tail, rfl, rfl, encodeChar_of_four hlow hhigh hb hc hd⟩
            · cases h
        · cases h
    · cases h

/-- A character that stands at the head of octets stands there with its own octets. -/
theorem isSpelledBy_of_head {lead : UInt8} {rest : Octets} {c : Char} {width : Nat}
    (h : head lead rest = .scalar c width) : IsSpelledBy c width lead rest := by
  rw [head_eq] at h
  by_cases h₁ : lead.toNat < 0x80
  · rw [if_pos h₁] at h
    cases h
    refine ⟨[], rest, rfl, rfl, ?_⟩
    rw [encodeChar_ofNat (.inl (by omega)), if_pos (by omega), UInt8.ofNat_toNat]
  rw [if_neg h₁] at h
  by_cases h₂ : lead.toNat < 0xC2
  · rw [if_pos h₂] at h
    cases h
  rw [if_neg h₂] at h
  by_cases h₃ : lead.toNat < 0xE0
  · rw [if_pos h₃] at h
    exact isSpelledBy_of_headOfTwo (by omega) h₃ h
  rw [if_neg h₃] at h
  by_cases h₄ : lead.toNat < 0xF0
  · rw [if_pos h₄] at h
    exact isSpelledBy_of_headOfThree (by omega) h₄ h
  rw [if_neg h₄] at h
  by_cases h₅ : lead.toNat < 0xF5
  · rw [if_pos h₅] at h
    exact isSpelledBy_of_headOfFour (by omega) h₅ h
  rw [if_neg h₅] at h
  cases h

/-! ### Texts -/

/-- The octets of a text are those of its characters. -/
theorem encode_eq (s : String) : encode s = s.toList.flatMap utf8EncodeChar := by
  obtain ⟨chars, rfl⟩ : ∃ chars, s = String.ofList chars := ⟨s.toList, by simp⟩
  show (String.ofList chars).toByteArray.data.toList = _
  rw [String.toByteArray_ofList, List.utf8Encode, List.toList_data_toByteArray,
    String.toList_ofList]

/-- The octets of a character that were read already are skipped. -/
theorem decodeFrom_skip (index : Nat) (before : List Char) (skipped rest : Octets) :
    decodeFrom index skipped.length before (skipped ++ rest) =
      decodeFrom (index + skipped.length) 0 before rest := by
  induction skipped generalizing index with
  | nil => rfl
  | cons b skipped ih =>
    have hindex : index + (skipped.length + 1) = index + 1 + skipped.length := by omega
    rw [List.length_cons, hindex]
    exact ih (index + 1)

/-- Characters that were encoded are decoded after those before them. -/
theorem decodeFrom_encodeChars (chars before : List Char) (index : Nat) :
    decodeFrom index 0 before (chars.flatMap utf8EncodeChar) = .ok (before.reverse ++ chars) := by
  induction chars generalizing before index with
  | nil => simp [decodeFrom]
  | cons c chars ih =>
    obtain ⟨lead, others, hencoded, hhead⟩ := head_encodeChar c (chars.flatMap utf8EncodeChar)
    have hchar : decodeFrom index 0 before (lead :: (others ++ chars.flatMap utf8EncodeChar)) =
        decodeFrom (index + 1) others.length (c :: before)
          (others ++ chars.flatMap utf8EncodeChar) := by
      rw [decodeFrom.eq_def]
      simp only [hhead, Nat.add_sub_cancel]
    rw [List.flatMap_cons, hencoded, List.cons_append, hchar, decodeFrom_skip, ih,
      List.reverse_cons, List.append_assoc]
    rfl

/-- A text is read back from its octets. -/
theorem decode_encode (s : String) : decode (encode s) = .ok s := by
  rw [decode, encode_eq, decodeFrom_encodeChars]
  simp [Except.map]

/-- Octets of a character that was read are skipped. -/
theorem symbolsFrom_skip (before : List (Option Char)) (skipped rest : Octets) :
    symbolsFrom skipped.length before (skipped ++ rest) = symbolsFrom 0 before rest := by
  induction skipped with
  | nil => rfl
  | cons b skipped ih => exact ih

/-- The octets of characters have no holes. -/
theorem symbolsFrom_encodeChars (chars : List Char) (before : List (Option Char)) :
    symbolsFrom 0 before (chars.flatMap utf8EncodeChar) = before.reverse ++ chars.map some := by
  induction chars generalizing before with
  | nil => simp [symbolsFrom]
  | cons c chars ih =>
    obtain ⟨lead, others, hencoded, hhead⟩ := head_encodeChar c (chars.flatMap utf8EncodeChar)
    have hchar : symbolsFrom 0 before (lead :: (others ++ chars.flatMap utf8EncodeChar)) =
        symbolsFrom others.length (some c :: before) (others ++ chars.flatMap utf8EncodeChar) := by
      rw [symbolsFrom.eq_def]
      simp only [hhead, Nat.add_sub_cancel]
    rw [List.flatMap_cons, hencoded, List.cons_append, hchar, symbolsFrom_skip, ih,
      List.reverse_cons, List.append_assoc]
    rfl

/-- A text is read back from its octets without a hole. -/
theorem decodeWithHoles_encode (s : String) : decodeWithHoles (encode s) = s.toList.map some := by
  rw [decodeWithHoles, encode_eq, symbolsFrom_encodeChars, List.reverse_nil, List.nil_append]

/-- Texts with the same octets are the same. -/
theorem encode_injective {s t : String} (h : encode s = encode t) : s = t := by
  have hread : decode (encode s) = .ok t := by rw [h, decode_encode]
  exact Except.ok.inj ((decode_encode s).symm.trans hread)

/-- Octets that were read are those of the characters that were read. -/
theorem eq_encodeChars_of_decodeFrom {index : Nat} {before chars : List Char} {octets : Octets}
    (h : decodeFrom index 0 before octets = .ok chars) :
    ∃ read, chars = before.reverse ++ read ∧ octets = read.flatMap utf8EncodeChar := by
  -- the octets of one character are skipped at once, so that the induction is on the length
  induction hlength : octets.length using Nat.strongRecOn generalizing index before octets with
  | ind n ih =>
    cases octets with
    | nil =>
      cases h
      exact ⟨[], (List.append_nil _).symm, rfl⟩
    | cons lead rest =>
      rw [decodeFrom.eq_def] at h
      simp only at h
      split at h
      · rename_i c width hhead
        obtain ⟨others, tail, rfl, rfl, hencoded⟩ := isSpelledBy_of_head hhead
        rw [Nat.add_sub_cancel, decodeFrom_skip] at h
        have hshorter : tail.length < n := by
          rw [← hlength, List.length_cons, List.length_append]
          omega
        obtain ⟨read, rfl, rfl⟩ := ih _ hshorter h rfl
        refine ⟨c :: read, ?_, ?_⟩
        · rw [List.reverse_cons, List.append_assoc, List.singleton_append]
        · rw [List.flatMap_cons, hencoded, List.cons_append]
      · cases h
      · cases h

/-- Octets are read as a text exactly if they are its octets. -/
theorem decode_eq_ok_iff {octets : Octets} {s : String} :
    decode octets = .ok s ↔ octets = encode s := by
  constructor
  · intro h
    unfold decode at h
    cases hchars : decodeFrom 0 0 [] octets with
    | error fault =>
      rw [hchars] at h
      cases h
    | ok chars =>
      rw [hchars] at h
      cases h
      obtain ⟨read, rfl, rfl⟩ := eq_encodeChars_of_decodeFrom hchars
      rw [encode_eq, String.toList_ofList]
  · rintro rfl
    exact decode_encode s

/-- Octets are read as a text exactly if they are well-formed. -/
theorem isValidUTF8_iff {octets : Octets} :
    octets.toByteArray.IsValidUTF8 ↔ ∃ s, decode octets = .ok s := by
  constructor
  · rintro ⟨chars, hchars⟩
    refine ⟨String.ofList chars, decode_eq_ok_iff.2 ?_⟩
    have hoctets := congrArg (fun bytes => bytes.data.toList) hchars
    rwa [List.toList_data_toByteArray, List.utf8Encode, List.toList_data_toByteArray,
      ← String.toList_ofList (l := chars), ← encode_eq] at hoctets
  · rintro ⟨s, hs⟩
    refine ⟨s.toList, ?_⟩
    rw [decode_eq_ok_iff.1 hs, encode_eq]
    rfl

/-- Octets hold no more characters than there are octets. -/
theorem length_of_decodeFrom {index skip : Nat} {before chars : List Char} {octets : Octets}
    (h : decodeFrom index skip before octets = .ok chars) :
    chars.length ≤ before.length + octets.length := by
  induction octets generalizing index skip before with
  | nil =>
    cases h
    rw [List.length_reverse]
    exact Nat.le_refl _
  | cons lead rest ih =>
    rw [List.length_cons]
    cases skip with
    | succ skip =>
      have hle := ih h
      omega
    | zero =>
      rw [decodeFrom.eq_def] at h
      simp only at h
      split at h
      · have hle := ih h
        rw [List.length_cons] at hle
        omega
      · cases h
      · cases h

/-- A text has no more characters than octets. -/
theorem length_of_decode {octets : Octets} {s : String} (h : decode octets = .ok s) :
    s.length ≤ octets.length := by
  unfold decode at h
  cases hchars : decodeFrom 0 0 [] octets with
  | error fault =>
    rw [hchars] at h
    cases h
  | ok chars =>
    rw [hchars] at h
    cases h
    rw [String.length_ofList]
    exact Nat.le_trans (length_of_decodeFrom hchars) (Nat.le_of_eq (Nat.zero_add _))

/-! ### Sizes -/

theorem foldl_utf8Size (chars : List Char) (n : Nat) :
    chars.foldl (fun n c => n + c.utf8Size) n = n + size chars := by
  induction chars generalizing n with
  | nil => rfl
  | cons c chars ih =>
    show chars.foldl _ (n + c.utf8Size) = n + chars.foldl _ (0 + c.utf8Size)
    rw [ih, ih]
    omega

@[simp] theorem size_nil : size [] = 0 := rfl

theorem size_cons (c : Char) (chars : List Char) :
    size (c :: chars) = c.utf8Size + size chars := by
  rw [size, List.foldl_cons, foldl_utf8Size, Nat.zero_add]

theorem size_append (chars others : List Char) :
    size (chars ++ others) = size chars + size others := by
  induction chars with
  | nil => simp
  | cons c chars ih => rw [List.cons_append, size_cons, size_cons, ih, Nat.add_assoc]

/-- The octets of a text are as many as its characters say. -/
theorem length_encode (s : String) : (encode s).length = size s.toList := by
  rw [encode_eq]
  induction s.toList with
  | nil => rfl
  | cons c chars ih =>
    rw [List.flatMap_cons, List.length_append, String.length_utf8EncodeChar, ih, size_cons]

end EvidenceSynthesis.Text.Utf8
