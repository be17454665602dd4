import EvidenceSynthesis.Proofs.Model.Weights
import EvidenceSynthesis.Proofs.Program.Walks
import Mathlib

/-!
# Which programs weigh most

A program weighs the more, the more of the requested tokens it has.  An encoder takes no more tokens
than it has rows, of the request as well as of a program, the first ones by code point.  A program
whose calls yield every requested token may therefore still *miss* some of those that the encoder
takes of the request, because they stand behind the first of its own tokens.

What the encoder takes of a request and may count is common to both sides or missed
(`Encoder.card_common_add_card_missed`), so that a program weighs at least as much as another
exactly if it misses no more, as long as the overlaps are counted truly
(`Corpus.weightOfOverlap_overlap_le_iff`).  A program that covers the request misses only what is
cut off from its own tokens, and where nothing is cut off it weighs as much as any program can
(`Corpus.weight_le_weight_of_covering`).
-/

namespace EvidenceSynthesis

open Decimal (Binary64)

/-! ### Tokens that are missed -/

namespace Encoder

/-- The tokens of a request that may count: those that the encoder takes and that are in its
vocabulary. -/
def countable (encoder : Encoder) (requested : Evidence) : Finset String :=
  (encoder.taken requested).toFinset.filter encoder.Admits

/-- The tokens of a request that may count and are not among those that the encoder takes of the
other side. -/
def missed (encoder : Encoder) (requested derived : Evidence) : Finset String :=
  encoder.countable requested \ (encoder.taken derived).toFinset

/-- The tokens that are missed although the other side has them: they stand behind those that the
encoder takes. -/
def cutOff (encoder : Encoder) (requested derived : Evidence) : Finset String :=
  (encoder.missed requested derived).filter (· ∈ derived.get encoder.kind)

variable {encoder : Encoder} {requested derived : Evidence}

/-- Missed tokens are requested, have a column and are not derived. -/
theorem mem_missed {token : String} :
    token ∈ encoder.missed requested derived ↔
      token ∈ encoder.taken requested ∧ encoder.Admits token ∧ token ∉ encoder.taken derived := by
  simp [missed, countable, and_assoc]

/-- What an encoder takes of a request and may count is common to both sides or missed. -/
theorem card_common_add_card_missed (encoder : Encoder) (requested derived : Evidence) :
    (encoder.common requested derived).card + (encoder.missed requested derived).card =
      (encoder.countable requested).card := by
  have hcommon : encoder.common requested derived =
      encoder.countable requested ∩ (encoder.taken derived).toFinset := by
    rw [common, countable, Finset.filter_inter]
  rw [hcommon, missed, Finset.card_inter_add_card_sdiff]

/-- Where every requested token is derived, the tokens that are missed are cut off. -/
theorem missed_eq_cutOff (h : ∀ token ∈ requested.get encoder.kind,
    token ∈ derived.get encoder.kind) :
    encoder.missed requested derived = encoder.cutOff requested derived := by
  refine (Finset.filter_true_of_mem fun token htoken => ?_).symm
  exact h token (List.mem_of_mem_take (mem_missed.1 htoken).1)

/-- Nothing is cut off from as many tokens as the encoder has rows. -/
theorem cutOff_eq_empty (h : (derived.get encoder.kind).size ≤ encoder.height) :
    encoder.cutOff requested derived = ∅ := by
  refine Finset.filter_false_of_mem fun token htoken hderived => ?_
  have htaken : encoder.taken derived = (derived.get encoder.kind).toList :=
    List.take_of_length_le h
  refine (mem_missed.1 htoken).2.2 ?_
  rw [htaken]
  exact TokenSet.mem_toList.2 hderived

end Encoder

/-! ### Sums over the encoders -/

namespace ModelConfig

/-- How many tokens of a request are missed, over all encoders. -/
def missed (config : ModelConfig) (requested derived : Evidence) : Nat :=
  (config.encoders.map fun encoder => (encoder.missed requested derived).card).sum

/-- How many tokens of a request are cut off from the other side, over all encoders. -/
def cutOff (config : ModelConfig) (requested derived : Evidence) : Nat :=
  (config.encoders.map fun encoder => (encoder.cutOff requested derived).card).sum

/-- What the encoders take of a request and may count is in common or missed. -/
theorem overlap_add_missed (config : ModelConfig) (requested derived : Evidence) :
    config.overlap requested derived + config.missed requested derived =
      (config.encoders.map fun encoder => (encoder.countable requested).card).sum := by
  rw [overlap, missed, ← List.sum_map_add]
  simp only [Encoder.card_common_add_card_missed]

/-- What covers a request misses only what is cut off from it. -/
theorem missed_eq_cutOff (config : ModelConfig) {requested : Evidence} {calls : List String}
    (h : requested.isCoveredBy calls = true) :
    config.missed requested (.ofCalls calls) = config.cutOff requested (.ofCalls calls) := by
  refine congrArg List.sum (List.map_congr_left fun encoder _ => ?_)
  rw [Encoder.missed_eq_cutOff fun token htoken => ?_]
  exact Evidence.mem_ofCalls.2 (Evidence.isCoveredBy_iff.1 h encoder.kind token htoken)

/-- Nothing is cut off over all encoders if nothing is cut off by any. -/
theorem cutOff_eq_zero {config : ModelConfig} {requested derived : Evidence}
    (h : ∀ encoder ∈ config.encoders, encoder.cutOff requested derived = ∅) :
    config.cutOff requested derived = 0 := by
  refine List.sum_eq_zero fun n hn => ?_
  obtain ⟨encoder, hencoder, rfl⟩ := List.mem_map.1 hn
  rw [h encoder hencoder, Finset.card_empty]

end ModelConfig

/-! ### Weights -/

namespace Corpus

/-- One side weighs at least as much as another exactly if it misses no more, where both overlaps
are below `2 ^ 31`. -/
theorem weightOfOverlap_overlap_le_iff (config : ModelConfig) {requested derived other : Evidence}
    (h : config.overlap requested derived < Word.bound31)
    (hother : config.overlap requested other < Word.bound31) :
    (weightOfOverlap (.ofNat (config.overlap requested other))).value ≤
        (weightOfOverlap (.ofNat (config.overlap requested derived))).value ↔
      config.missed requested derived ≤ config.missed requested other := by
  have hsum := config.overlap_add_missed requested derived
  have hothersum := config.overlap_add_missed requested other
  rw [weightOfOverlap_le_iff hother h]
  omega

/-- A program of the corpus of trees weighs what its calls have in common with the request. -/
theorem getElem?_weigh_corpusOf (config : ModelConfig) (trees : List Tree) (requested : Evidence)
    {i : Nat} {program : CorpusProgram} (h : (corpusOf config trees).programs[i]? = some program) :
    ((corpusOf config trees).weigh requested)[i]? = some
      (weightOfOverlap (.ofNat (config.overlap requested (.ofCalls program.calls)))) := by
  rw [corpusOf, List.getElem?_map, Option.map_eq_some_iff] at h
  obtain ⟨tree, htree, rfl⟩ := h
  rw [weigh_corpusOf, List.getElem?_map, htree]
  rfl

/-- What a program that covers a request weighs in comparison with another program of its corpus,
where the overlaps of both with the request are below `2 ^ 31`.

It weighs at least as much exactly if no more of the tokens that the encoders take of the request
are cut off from its own tokens than the other program misses.  So it does in any case if none is
cut off, in particular if its calls yield no more tokens of each kind than the encoder has rows. -/
theorem weight_le_weight_of_covering (config : ModelConfig) (trees : List Tree) {corpus : Corpus}
    (hcorpus : ofTrees config trees = .ok corpus) (requested : Evidence) {i j : Nat}
    {program other : CorpusProgram} (hprogram : corpus.programs[i]? = some program)
    (hother : corpus.programs[j]? = some other)
    (hcovers : requested.isCoveredBy program.calls = true)
    (hbound : config.overlap requested (.ofCalls program.calls) < Word.bound31)
    (hotherbound : config.overlap requested (.ofCalls other.calls) < Word.bound31) :
    ∃ weight otherWeight,
      (corpus.weigh requested)[i]? = some weight ∧
      (corpus.weigh requested)[j]? = some otherWeight ∧
      (otherWeight.value ≤ weight.value ↔
        config.cutOff requested (.ofCalls program.calls) ≤
          config.missed requested (.ofCalls other.calls)) ∧
      ((∀ encoder ∈ config.encoders,
        encoder.cutOff requested (.ofCalls program.calls) = ∅) →
          otherWeight.value ≤ weight.value) ∧
      ((∀ encoder ∈ config.encoders,
        ((Evidence.ofCalls program.calls).get encoder.kind).size ≤ encoder.height) →
          otherWeight.value ≤ weight.value) := by
  obtain ⟨-, -, rfl⟩ := ofTrees_eq_ok_iff.1 hcorpus
  have hiff := weightOfOverlap_overlap_le_iff config hbound hotherbound
  rw [config.missed_eq_cutOff hcovers] at hiff
  have hmost : (∀ encoder ∈ config.encoders,
      encoder.cutOff requested (.ofCalls program.calls) = ∅) →
      config.cutOff requested (.ofCalls program.calls) ≤
        config.missed requested (.ofCalls other.calls) := by
    intro hnone
    rw [ModelConfig.cutOff_eq_zero hnone]
    exact Nat.zero_le _
  refine ⟨_, _, getElem?_weigh_corpusOf config trees requested hprogram,
    getElem?_weigh_corpusOf config trees requested hother, hiff, ?_, ?_⟩
  · exact fun hnone => hiff.2 (hmost hnone)
  · intro hsizes
    exact hiff.2 (hmost fun encoder hencoder => Encoder.cutOff_eq_empty (hsizes encoder hencoder))

/-- With two rows, a program of three calls covers two requested tokens and weighs most: the token
that is cut off was not requested. -/
theorem weight_le_weight_of_covering_three :
    let config := ModelConfig.withRows 2
    let trees := [Tree.calling ["a()", "b()", "c()"], Tree.calling ["b()"]]
    let requested := Evidence.empty.add .apiCalls ["a", "b"]
    ∃ corpus program other, ofTrees config trees = .ok corpus ∧
      corpus.programs = [program, other] ∧ requested.isCoveredBy program.calls = true ∧
      config.overlap requested (.ofCalls program.calls) = 2 ∧
      config.overlap requested (.ofCalls other.calls) = 1 ∧
      (∀ encoder ∈ config.encoders,
        encoder.cutOff requested (.ofCalls program.calls) = ∅) ∧
      ∃ weight otherWeight, corpus.weigh requested = [weight, otherWeight] ∧
        corpus.weights requested = [9, 4] ∧ otherWeight.value ≤ weight.value := by
  intro config trees requested
  have hcorpus : ofTrees config trees = .ok (corpusOf config trees) := by cbv
  have hcovers : requested.isCoveredBy (Tree.calling ["a()", "b()", "c()"]).calls = true := by cbv
  have hoverlap : config.overlap requested
      (.ofCalls (Tree.calling ["a()", "b()", "c()"]).calls) = 2 := by cbv
  have hotheroverlap : config.overlap requested
      (.ofCalls (Tree.calling ["b()"]).calls) = 1 := by cbv
  have hbound : 2 < Word.bound31 := by decide
  have hcut : ∀ encoder ∈ config.encoders, encoder.cutOff requested
      (.ofCalls (Tree.calling ["a()", "b()", "c()"]).calls) = ∅ := by
    have hall : (config.encoders.all fun encoder => encoder.cutOff requested
        (.ofCalls (Tree.calling ["a()", "b()", "c()"]).calls) = ∅) = true := by cbv
    simpa using hall
  have hweights : (corpusOf config trees).weights requested = [9, 4] := by
    rw [weights_corpusOf] <;> simp [trees, -Tree.calls_calling, hoverlap, hotheroverlap]
  obtain ⟨weight, otherWeight, hweight, hother, -, hle, -⟩ :=
    weight_le_weight_of_covering config trees hcorpus requested (i := 0) (j := 1) rfl rfl hcovers
      (hoverlap.trans_lt hbound) (hotheroverlap.trans_lt (Nat.lt_of_succ_lt hbound))
  have hlist : (corpusOf config trees).weigh requested = [weight, otherWeight] := by
    rw [weigh_corpusOf] at hweight hother ⊢
    simp only [trees, List.map_cons, List.map_nil, List.getElem?_cons_zero,
      List.getElem?_cons_succ, Option.some.injEq] at hweight hother
    rw [List.map_cons, List.map_singleton, hweight, hother]
  exact ⟨_, _, _, hcorpus, rfl, hcovers, hoverlap, hotheroverlap, hcut, weight, otherWeight, hlist,
    hweights, hle hcut⟩

/-- With a single row, a program whose calls cover the request weighs less than another one. -/
theorem covering_outweighed :
    let config := ModelConfig.withRows 1
    let trees := [Tree.calling ["a()", "b()"], Tree.calling ["b()"]]
    let requested := Evidence.empty.add .apiCalls ["b"]
    config.encoders.map (·.kind) = Kind.all ∧
    (∀ encoder ∈ config.encoders, encoder.vocabulary = none) ∧
    ∃ corpus program other, ofTrees config trees = .ok corpus ∧
      corpus.programs = [program, other] ∧ requested.isCoveredBy program.calls = true ∧
      (corpus.weigh requested).map Binary64.value = [1, 4] := by
  intro config trees requested
  have hcorpus : ofTrees config trees = .ok (corpusOf config trees) := by cbv
  have hcovers : requested.isCoveredBy (Tree.calling ["a()", "b()"]).calls = true := by cbv
  have hoverlap : config.overlap requested
      (.ofCalls (Tree.calling ["a()", "b()"]).calls) = 0 := by cbv
  have hotheroverlap : config.overlap requested
      (.ofCalls (Tree.calling ["b()"]).calls) = 1 := by cbv
  have hweights : (corpusOf config trees).weights requested = [1, 4] := by
    rw [weights_corpusOf] <;> simp [trees, -Tree.calls_calling, hoverlap, hotheroverlap]
  have hvalues : ((corpusOf config trees).weigh requested).map Binary64.value = [1, 4] := by
    rw [← natCast_weights, hweights]
    norm_num
  exact ⟨rfl, by simp [config, ModelConfig.withRows], _, _, _, hcorpus, rfl, hcovers, hvalues⟩

end Corpus

end EvidenceSynthesis
