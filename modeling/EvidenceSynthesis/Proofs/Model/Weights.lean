import EvidenceSynthesis.Proofs.Model.OwnEvidence
import Mathlib

/-!
# What a program weighs

A corpus of trees gives a vocabulary to every encoder that has none, one that holds every token that
a tree yields (`Corpus.admits_learned`).  It makes no difference to the tokens in common
(`Corpus.common_learned`), so that a program overlaps with a request by the number of tokens in
common over all encoders (`Corpus.overlap_corpusOf`).

Below `2 ^ 31` that number `o` is counted truly, and the program weighs the binary64 number that is
nearest to `(1 + o) ^ 2` (`Corpus.weights_eq`).
-/

namespace EvidenceSynthesis

open Decimal (Binary64)
open Decimal.Binary64 (IsNearest)

/-! ### Corpora -/

namespace Corpus

/-- The tokens that trees yield. -/
def yields (trees : List Tree) : List Evidence :=
  trees.map fun tree => .ofCalls tree.calls

/-- What a program's calls yield is part of what the corpus yields. -/
theorem ofCalls_mem_yields {trees : List Tree} {tree : Tree} (h : tree ∈ trees) :
    Evidence.ofCalls tree.calls ∈ yields trees :=
  List.mem_map.2 ⟨tree, h, rfl⟩

/-- The encoders of the corpus of trees, each of which has a vocabulary. -/
def encodersFor (config : ModelConfig) (trees : List Tree) : List Encoder :=
  config.encoders.map (learned (yields trees))

/-- The corpus of trees, if there is one. -/
def corpusOf (config : ModelConfig) (trees : List Tree) : Corpus :=
  ⟨{ config with encoders := encodersFor config trees },
    trees.map (programOfTree (encodersFor config trees))⟩

/-- A corpus of trees has programs if there are trees. -/
theorem programs_corpusOf_ne_nil (config : ModelConfig) {trees : List Tree} (h : trees ≠ []) :
    (corpusOf config trees).programs ≠ [] := by
  rwa [corpusOf, ne_eq, List.map_eq_nil_iff]

/-- There is a corpus of trees if there are trees and there is memory for the matrices of the
encoders. -/
theorem ofTrees_eq_ok_iff {config : ModelConfig} {trees : List Tree} {corpus : Corpus} :
    ofTrees config trees = .ok corpus ↔
      trees ≠ [] ∧ (∀ encoder ∈ encodersFor config trees, encoder.fits = true) ∧
        corpusOf config trees = corpus := by
  have hofTrees : ofTrees config trees =
      if trees.isEmpty then .error (.failed (.artifact .noPrograms))
      else if (encodersFor config trees).all Encoder.fits then .ok (corpusOf config trees)
      else .error .crashed := rfl
  rw [hofTrees, ← List.all_eq_true, ne_eq, ← List.isEmpty_iff]
  by_cases hempty : trees.isEmpty = true
  · simp [hempty]
  by_cases hfits : (encodersFor config trees).all Encoder.fits = true
  · rw [if_neg hempty, if_pos hfits, Except.ok.injEq]
    exact ⟨fun h => ⟨hempty, hfits, h⟩, fun h => h.2.2⟩
  · rw [if_neg hempty, if_neg hfits]
    exact iff_of_false (by simp) fun h => hfits h.2.1

/-- A learned encoder has a vocabulary. -/
theorem exists_vocabulary_learned (derived : List Evidence) (encoder : Encoder) :
    ∃ vocabulary, (learned derived encoder).vocabulary = some vocabulary := by
  unfold learned
  cases hvocabulary : encoder.vocabulary with
  | none => exact ⟨_, rfl⟩
  | some vocabulary => exact ⟨vocabulary, hvocabulary⟩

/-- The vocabulary that is built for an encoder holds every token that a program yields. -/
theorem admits_learned {derived : List Evidence} {encoder : Encoder}
    (hnone : encoder.vocabulary = none) {evidence : Evidence} (hevidence : evidence ∈ derived)
    {token : String} (htoken : token ∈ evidence.get encoder.kind) :
    (learned derived encoder).Admits token := by
  rw [learned, hnone]
  rintro vocabulary ⟨⟩
  exact Vocabulary.mem_tokens_ofData.2 ⟨_, List.mem_map.2 ⟨evidence, hevidence, rfl⟩, htoken⟩

/-- A vocabulary that is built makes no difference to the tokens in common. -/
theorem common_learned {derived : List Evidence} (encoder : Encoder) (requested : Evidence)
    {evidence : Evidence} (hevidence : evidence ∈ derived) :
    (learned derived encoder).common requested evidence = encoder.common requested evidence := by
  cases hvocabulary : encoder.vocabulary with
  | some vocabulary => rw [learned, hvocabulary]
  | none =>
    have htaken : ∀ tokens, (learned derived encoder).taken tokens = encoder.taken tokens := by
      intro tokens
      rw [learned, hvocabulary]
      rfl
    ext token
    rw [Encoder.mem_common, Encoder.mem_common, htaken, htaken]
    refine and_congr_right fun _ => and_congr_right fun htoken => ?_
    have hmem : token ∈ evidence.get encoder.kind := List.mem_of_mem_take htoken
    refine iff_of_true (admits_learned hvocabulary hevidence hmem) ?_
    simp [Encoder.Admits, hvocabulary]

/-- The overlap of what is requested with a program is the word of the number of tokens in
common. -/
theorem overlap_corpusOf (config : ModelConfig) {trees : List Tree} (requested : Evidence)
    {evidence : Evidence} (hevidence : evidence ∈ yields trees) :
    overlap (presences (encodersFor config trees) requested)
        (presences (encodersFor config trees) evidence) =
      .ofNat (config.overlap requested evidence) := by
  rw [overlap_eq_ofNat, productSum_presences, encodersFor, List.map_map]
  refine congrArg Int32.ofNat (congrArg List.sum (List.map_congr_left fun encoder _ => ?_))
  obtain ⟨vocabulary, hvocabulary⟩ := exists_vocabulary_learned (yields trees) encoder
  rw [Function.comp_apply, Encoder.product_presence_eq_card hvocabulary,
    common_learned encoder requested hevidence]

/-- A corpus weighs each tree by the tokens that it has in common with what is requested. -/
theorem weigh_corpusOf (config : ModelConfig) (trees : List Tree) (requested : Evidence) :
    (corpusOf config trees).weigh requested = trees.map fun tree =>
      weightOfOverlap (.ofNat (config.overlap requested (.ofCalls tree.calls))) := by
  rw [weigh, corpusOf, List.map_map]
  refine List.map_congr_left fun tree htree => ?_
  rw [Function.comp_apply, programOfTree,
    overlap_corpusOf config requested (ofCalls_mem_yields htree)]

/-- Weights that take no more than 53 bits are told as the squares that they are. -/
theorem weights_corpusOf {config : ModelConfig} {trees : List Tree} {requested : Evidence}
    (h : ∀ tree ∈ trees, (1 + config.overlap requested (.ofCalls tree.calls)) ^ 2 ≤ 2 ^ 53) :
    (corpusOf config trees).weights requested = trees.map fun tree =>
      (1 + config.overlap requested (.ofCalls tree.calls)) ^ 2 := by
  rw [weights, weigh_corpusOf, List.map_map]
  refine List.map_congr_left fun tree htree => ?_
  have hvalue := wholePart_weightOfOverlap
    (.ofNat (config.overlap requested (.ofCalls tree.calls)))
  rw [weightOfOverlap_eq_of_le (h tree htree)] at hvalue
  exact_mod_cast hvalue

/-- The corpus of a program that makes numbered calls, and what the program weighs for the evidence
of these calls. -/
theorem corpusOf_numberedCalls {rows : UInt64} {n : Nat} (hn : 0 < n) (hle : n ≤ rows.toNat)
    (hfits : 4 * (rows.toNat * n) < Word.bound63) :
    let config := ModelConfig.withRows rows
    let tree := Tree.calling (numberedCalls n)
    let requested := Evidence.ofCalls tree.calls
    ofTrees config [tree] = .ok (corpusOf config [tree]) ∧
      config.overlap requested (.ofCalls tree.calls) = 3 * n ∧
      (corpusOf config [tree]).weigh requested = [weightOfOverlap (.ofNat (3 * n))] := by
  intro config tree requested
  have hown : Evidence.ofCalls tree.calls = .ofCalls (numberedCalls n) := by
    rw [Tree.calls_calling]
  have hoverlap : config.overlap requested (.ofCalls tree.calls) = 3 * n := by
    show config.overlap (.ofCalls tree.calls) _ = _
    rw [hown]
    exact ModelConfig.overlap_withRows_numberedCalls hle
  have hmemory : ∀ encoder ∈ encodersFor config [tree], encoder.fits = true := by
    rw [encodersFor, yields, List.map_singleton, hown, List.forall_mem_map]
    exact ModelConfig.fits_withRows_numberedCalls (by omega) hn hfits
  refine ⟨ofTrees_eq_ok_iff.2 ⟨List.cons_ne_nil _ _, hmemory, rfl⟩, hoverlap, ?_⟩
  rw [weigh_corpusOf, List.map_singleton, hoverlap]

/-- What programs weigh, for any settings.

There is a corpus of trees if there are trees and there is memory for the matrices of the encoders.
A program weighs what the word of its overlap does.  Here the overlap `o` counts, over all encoders,
the tokens that the encoder takes both of what is requested and of what the calls of the tree yield,
and that are in the vocabulary of the encoder if one was stored with it.

An overlap below `2 ^ 31` is that of its word, and the weight is `(1 + o) ^ 2`, rounded once: no
number of the format is nearer to the square, and the weight is the square itself exactly if all
bits of the square but the first 53 are zeros, in particular if it is `2 ^ 53` at most.  Where no
square is beyond `2 ^ 53`, the weights are told as these integers.

Where no vocabulary was stored, one is built that holds every token that a tree yields. -/
theorem weights_eq (config : ModelConfig) (trees : List Tree) :
    ((∃ corpus, ofTrees config trees = .ok corpus) ↔
      trees ≠ [] ∧ ∀ encoder ∈ encodersFor config trees, encoder.fits = true) ∧
    (∀ corpus, ofTrees config trees = .ok corpus → ∀ requested,
      (corpus.weigh requested = trees.map fun tree =>
        weightOfOverlap (.ofNat (config.overlap requested (.ofCalls tree.calls)))) ∧
      ∀ tree ∈ trees, ∀ o, config.overlap requested (.ofCalls tree.calls) = o →
        o < Word.bound31 →
          Binary64.ofInt? ((1 + o) ^ 2 : Nat) = some (weightOfOverlap (.ofNat o)) ∧
          (weightOfOverlap (.ofNat o)).IsNearest ((1 + (o : ℚ)) ^ 2) ∧
          ((weightOfOverlap (.ofNat o)).value = (1 + (o : ℚ)) ^ 2 ↔
            ∃ k < Decimal.significandBound, ∃ j, (1 + o) ^ 2 = k * 2 ^ j) ∧
          ((1 + o) ^ 2 ≤ 2 ^ 53 → (weightOfOverlap (.ofNat o)).value = (1 + (o : ℚ)) ^ 2)) ∧
    (∀ corpus, ofTrees config trees = .ok corpus → ∀ requested,
      (∀ tree ∈ trees, (1 + config.overlap requested (.ofCalls tree.calls)) ^ 2 ≤ 2 ^ 53) →
        corpus.weights requested = trees.map fun tree =>
          (1 + config.overlap requested (.ofCalls tree.calls)) ^ 2) ∧
    ∀ encoder ∈ config.encoders, encoder.vocabulary = none →
      ∃ vocabulary, (learned (yields trees) encoder).vocabulary = some vocabulary ∧
        ∀ tree ∈ trees, ∀ token ∈ (Evidence.ofCalls tree.calls).get encoder.kind,
          token ∈ vocabulary.tokens := by
  refine ⟨?_, ?_, ?_, ?_⟩
  · simp only [ofTrees_eq_ok_iff]
    constructor
    · rintro ⟨_, htrees, hfits, -⟩
      exact ⟨htrees, hfits⟩
    · rintro ⟨htrees, hfits⟩
      exact ⟨_, htrees, hfits, rfl⟩
  · intro corpus hcorpus requested
    obtain ⟨-, -, rfl⟩ := ofTrees_eq_ok_iff.1 hcorpus
    refine ⟨weigh_corpusOf config trees requested, fun tree _ o _ ho => ?_⟩
    exact ⟨ofInt?_weightOfOverlap_ofNat ho, (weightOfOverlap_ofNat_spec ho).1,
      weightOfOverlap_eq_iff ho, weightOfOverlap_eq_of_le⟩
  · intro corpus hcorpus requested hsmall
    obtain ⟨-, -, rfl⟩ := ofTrees_eq_ok_iff.1 hcorpus
    exact weights_corpusOf hsmall
  · intro encoder _ hnone
    obtain ⟨vocabulary, hvocabulary⟩ := exists_vocabulary_learned (yields trees) encoder
    refine ⟨vocabulary, hvocabulary, fun tree htree token htoken => ?_⟩
    exact admits_learned hnone (ofCalls_mem_yields htree) htoken vocabulary hvocabulary

/-- Where the square takes more than 53 bits, it need not be the weight; and there are settings with
so many rows that there is no corpus and nothing is weighed. -/
theorem weights_not_exact :
    let config := ModelConfig.withRows 31635422
    let tree := Tree.calling (numberedCalls 31635422)
    let requested := Evidence.ofCalls tree.calls
    let tall := ModelConfig.withRows 0x8000000000000000
    (ModelConfig.ofValue false config.toValue = .ok config ∧
      config.overlap requested (.ofCalls tree.calls) = 94906266 ∧
      ∃ corpus weight, ofTrees config [tree] = .ok corpus ∧ corpus.weigh requested = [weight] ∧
        weight.value = 9007199515875288 ∧ (1 + 94906266) ^ 2 = 9007199515875289) ∧
    ModelConfig.ofValue false tall.toValue = .ok tall ∧
      ofTrees tall [Tree.calling []] = .error .crashed := by
  intro config tree requested tall
  obtain ⟨hcorpus, hoverlap, hweights⟩ :=
    @corpusOf_numberedCalls 31635422 31635422 (by decide) (by decide) (by decide)
  have hweight : weightOfOverlap (.ofNat 94906266) = ⟨false, 4503599757937644, 1, by decide⟩ := by
    decide +kernel
  refine ⟨⟨ModelConfig.ofValue_toValue_withRows _, hoverlap, _, _, hcorpus, hweights, ?_,
      by norm_num⟩,
    ModelConfig.ofValue_toValue_withRows _, by cbv⟩
  rw [hweight, Binary64.value, Binary64.value_magnitude]
  norm_num [Decimal.Binary64.signed]

end Corpus

end EvidenceSynthesis
