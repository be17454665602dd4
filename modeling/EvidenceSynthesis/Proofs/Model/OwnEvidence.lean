import EvidenceSynthesis.Proofs.Evidence.Frequencies
import EvidenceSynthesis.Proofs.Evidence.Signatures
import EvidenceSynthesis.Proofs.Model.CommonTokens
import EvidenceSynthesis.Proofs.Program.Walks
import Mathlib

/-!
# The evidence of a program's own calls

Nothing overlaps with a program as much as the evidence of its own calls: an encoder without a
vocabulary has all tokens in common with them that it takes (`Encoder.card_common_self`).  And where
there is one program only, the vocabulary that is built has a place for each of its tokens
(`Corpus.width_learned`).

So any overlap is reached.  Calls can be numbered so that each of them yields one token of each kind
that no other one yields (`Call.extract_numbered`), and a program that makes the first `n` of them
overlaps with its evidence by `3 * n` if the three encoders have enough rows
(`ModelConfig.overlap_withRows_numberedCalls`).
-/

namespace EvidenceSynthesis

/-- The size of a set is the number of its tokens. -/
theorem TokenSet.size_eq_card (set : TokenSet) : set.size = set.toList.toFinset.card :=
  (List.toFinset_card_of_nodup set.nodup_toList).symm

namespace Encoder

variable {encoder : Encoder}

/-- Without a vocabulary, all tokens that are taken are in common. -/
theorem card_common_self (h : encoder.vocabulary = none) (evidence : Evidence) :
    (encoder.common evidence evidence).card =
      min encoder.height (evidence.get encoder.kind).size := by
  have hcommon : encoder.common evidence evidence = (encoder.taken evidence).toFinset := by
    rw [common, Finset.inter_self]
    refine Finset.filter_true_of_mem fun token _ => ?_
    simp [Admits, h]
  rw [hcommon, List.toFinset_card_of_nodup (nodup_taken evidence), taken, List.length_take]
  rfl

/-- There is memory for a matrix with rows and columns if it has few enough places. -/
theorem fits_of_lt (hheight : 0 < encoder.height) (hwidth : 0 < encoder.width)
    (h : 4 * (encoder.height * encoder.width) < Word.bound63) : encoder.fits = true := by
  have hvolume : Shape.volume [encoder.height, encoder.width] = encoder.height * encoder.width := by
    simp [Shape.volume]
  have hall : encoder.shape.filter (0 < ·) = [encoder.height, encoder.width] := by
    simp [shape, hheight, hwidth]
  rw [fits, Shape.fits, Shape.extent, hall, shape, hvolume, Bool.and_eq_true, decide_eq_true_iff,
    decide_eq_true_iff, Shape.entrySize]
  omega

end Encoder

namespace Corpus

/-- The vocabulary that is built of the tokens of one program has a place for each of them. -/
theorem width_learned {encoder : Encoder} (h : encoder.vocabulary = none) (evidence : Evidence) :
    (learned [evidence] encoder).width = (evidence.get encoder.kind).size := by
  have hlearned : learned [evidence] encoder =
      encoder.learn [(evidence.get encoder.kind).toList] := by
    rw [learned, h]
    rfl
  have htokens : (Vocabulary.ofData [(evidence.get encoder.kind).toList]).tokens.toFinset =
      (evidence.get encoder.kind).toList.toFinset := by
    ext token
    simp [Vocabulary.mem_tokens_ofData]
  rw [hlearned, TokenSet.size_eq_card, ← htokens,
    List.toFinset_card_of_nodup (Vocabulary.nodup_tokens_ofData _)]
  rfl

end Corpus

/-! ### Numbered calls -/

namespace Call

/-- One more than `n` copies of a letter. -/
def letters (c : Char) (n : Nat) : List Char :=
  List.replicate (n + 1) c

theorem not_mem_letters {c other : Char} (h : other ≠ c) (n : Nat) : other ∉ letters c n :=
  fun hmem => h (List.eq_of_mem_replicate hmem)

theorem letters_injective (c : Char) : Function.Injective (letters c) := by
  intro n m h
  have hlength := congrArg List.length h
  simp only [letters, List.length_replicate] at hlength
  omega

/-- The parts of the call with a number: the names of its class, its method and its argument are as
long as the number tells. -/
def numberedParts (n : Nat) : Parts where
  owners :=
    [⟨letters 'A' n, not_mem_letters (by decide) n, not_mem_letters (by decide) n⟩]
  method := ⟨letters 'a' n, not_mem_letters (by decide) n, not_mem_letters (by decide) n⟩
  behind := some (letters 'a' n ++ [')'])

/-- The call with a number. -/
def numbered (n : Nat) : String :=
  (numberedParts n).text

/-- The token of a kind that the call with a number yields. -/
def numberedToken (kind : Kind) (n : Nat) : String :=
  String.ofList (letters (if kind = .types then 'A' else 'a') n)

theorem numberedToken_injective (kind : Kind) : Function.Injective (numberedToken kind) :=
  fun _ _ h => letters_injective _ (String.ofList_injective h)

/-- The arguments of the call with a number are one name. -/
theorem argumentNames_numbered (n : Nat) :
    argumentNames (numberedParts n).tail = [letters 'a' n] := by
  have harguments : arguments? (numberedParts n).tail = some (letters 'a' n) := by
    refine arguments?_eq_some_iff.2 ⟨[], [')'], rfl, List.not_mem_nil, fun c hc => ?_, by simp⟩
    rw [List.eq_of_mem_replicate hc]
    decide
  have hcomma : (letters 'a' n).splitOn ',' = [letters 'a' n] :=
    List.splitOn_eq_singleton (not_mem_letters (by decide) n)
  have hname : simpleName (letters 'a' n) = letters 'a' n := by
    have hwhole : withoutBrackets (letters 'a' n ++ []) = letters 'a' n ++ withoutBrackets [] :=
      withoutBrackets_append (not_mem_letters (by decide) n) []
    rw [List.append_nil, withoutBrackets, List.append_nil] at hwhole
    rw [simpleName_of_plain (not_mem_letters (by decide) n) (not_mem_letters (by decide) n), hwhole]
  simp only [argumentNames, harguments, hcomma, List.map_singleton, hname]
  simp [letters]

/-- The call with a number yields one token of each kind. -/
theorem extract_numbered (kind : Kind) (n : Nat) :
    kind.extract (numbered n) = [numberedToken kind n] := by
  cases kind with
  | apiCalls =>
    have hmethod : (numberedParts n).method.chars ≠ [] := by simp [numberedParts, letters]
    have howner : (numberedParts n).owners.getLast? ≠ some (numberedParts n).method := by
      intro h
      have hchars := congrArg (fun segment => segment.map Segment.chars) h
      simp [numberedParts, letters, List.replicate_succ] at hchars
    rw [numbered, Parts.extract_apiCalls, if_neg (not_or.2 ⟨hmethod, howner⟩)]
    rfl
  | types =>
    have hcapital : isCapitalized (letters 'A' n) = true := by
      have hA : Text.isUppercase 'A' = true := by decide
      simp [isCapitalized, letters, List.replicate_succ, hA]
    have hcapitalized : (numberedParts n).capitalized = (numberedParts n).owners := by
      rw [Parts.capitalized, List.filter_eq_self]
      intro segment hsegment
      rw [List.mem_singleton.1 hsegment]
      exact hcapital
    rw [numbered, Parts.extract_types, hcapitalized]
    rfl
  | context =>
    rw [numbered, Parts.extract_context, Kind.extract, String.toList_ofList]
    simp only [argumentNames_numbered, List.map_singleton]
    rfl

end Call

/-- The calls with the numbers below `n`. -/
def numberedCalls (n : Nat) : List String :=
  (List.range n).map Call.numbered

/-- So many calls yield so many tokens of each kind. -/
theorem size_ofCalls_numberedCalls (kind : Kind) (n : Nat) :
    ((Evidence.ofCalls (numberedCalls n)).get kind).size = n := by
  have htokens : ((Evidence.ofCalls (numberedCalls n)).get kind).toList.toFinset =
      (Finset.range n).image (Call.numberedToken kind) := by
    ext token
    rw [List.mem_toFinset, TokenSet.mem_toList, Evidence.mem_ofCalls]
    simp [numberedCalls, Call.extract_numbered, eq_comm]
  rw [TokenSet.size_eq_card, htokens,
    Finset.card_image_of_injective _ (Call.numberedToken_injective kind), Finset.card_range]

/-! ### Encoders with so many rows -/

namespace ModelConfig

/-- Settings with an encoder of so many rows for each kind, and without vocabularies. -/
def withRows (rows : UInt64) : ModelConfig where
  latentSize := 8
  batchSize := 1
  numEpochs := 1
  learningRate := .zero false
  printStep := 1
  alpha := .zero false
  beta := .zero false
  encoders := Kind.all.map fun kind => ⟨kind, 8, 1, rows, none⟩
  decoder := ⟨16, 8, none⟩

variable {rows : UInt64} {n : Nat}

/-- These settings are read from their stored form. -/
theorem ofValue_toValue_withRows (rows : UInt64) :
    ofValue false (withRows rows).toValue = .ok (withRows rows) :=
  ofValue_toValue rfl fun h => absurd h Bool.false_ne_true

/-- Encoders with enough rows have a token of each kind in common with every numbered call. -/
theorem overlap_withRows_numberedCalls (h : n ≤ rows.toNat) :
    (withRows rows).overlap (.ofCalls (numberedCalls n)) (.ofCalls (numberedCalls n)) = 3 * n := by
  have hcommon : ∀ encoder ∈ (withRows rows).encoders,
      (encoder.common (.ofCalls (numberedCalls n)) (.ofCalls (numberedCalls n))).card = n := by
    intro encoder hencoder
    obtain ⟨kind, -, rfl⟩ := List.mem_map.1 hencoder
    rw [Encoder.card_common_self rfl, size_ofCalls_numberedCalls]
    exact min_eq_right h
  rw [overlap, List.map_congr_left hcommon]
  simp [withRows, Kind.all]
  omega

/-- There is memory for the matrices of numbered calls if they have few enough places. -/
theorem fits_withRows_numberedCalls (hrows : 0 < rows.toNat) (hn : 0 < n)
    (h : 4 * (rows.toNat * n) < Word.bound63) :
    ∀ encoder ∈ (withRows rows).encoders,
      (Corpus.learned [.ofCalls (numberedCalls n)] encoder).fits = true := by
  intro encoder hencoder
  obtain ⟨kind, -, rfl⟩ := List.mem_map.1 hencoder
  have hwidth :
      (Corpus.learned [.ofCalls (numberedCalls n)] ⟨kind, 8, 1, rows, none⟩).width = n := by
    rw [Corpus.width_learned rfl, size_ofCalls_numberedCalls]
  refine Encoder.fits_of_lt hrows ?_ ?_
  · rwa [hwidth]
  · rw [hwidth]
    exact h

end ModelConfig

end EvidenceSynthesis
