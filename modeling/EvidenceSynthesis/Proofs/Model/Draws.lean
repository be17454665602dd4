import EvidenceSynthesis.Proofs.Evidence.Matrices
import EvidenceSynthesis.Proofs.Model.CorpusSearch
import EvidenceSynthesis.Proofs.Model.Reload
import Mathlib

/-!
# Draws that do not fail

A draw from a corpus could be broken off in several ways: a place outside of a matrix could be
written, vectors of different lengths could be multiplied, the weights could be missing or all zero,
or a place behind the last program could be picked.  `Corpus.weights?` computes the weights with the
first two of these as failures.

Only the weights can be of no use in a corpus that is *sound* (`Corpus.IsSound`): there is a
program, each encoder has a vocabulary with columns for its tokens, and each program has the vectors
of its own tokens.  A corpus that is built from trees is sound (`Corpus.isSound_corpusOf`).  So a
draw comes to one of the programs exactly if some program weighs something
(`Corpus.IsSound.draw`), and so it is in any sequence of draws (`Corpus.drawAll_succeeds`).

Every program weighs at least one as long as its overlap is below `2 ^ 31`, which the rows and
columns of the encoders may ensure (`Corpus.greatestOverlap`).  An overlap that goes around weighs
nothing (`Corpus.drawAll_fails`).
-/

namespace EvidenceSynthesis

open Decimal (Binary64)

/-- A list is mapped without failure if no item fails. -/
theorem mapM_eq_some_map {α β : Type} {f : α → Option β} {g : α → β} {items : List α}
    (h : ∀ item ∈ items, f item = some (g item)) : items.mapM f = some (items.map g) := by
  induction items with
  | nil => rfl
  | cons item rest ih =>
    obtain ⟨hitem, hrest⟩ := List.forall_mem_cons.1 h
    rw [List.mapM_cons, hitem, ih hrest]
    rfl

namespace Encoder

/-- The presence of tokens as the sum of the columns of their matrix, which is filled place by
place. -/
def summed? (encoder : Encoder) (tokens : List String) : Option (List Nat) :=
  (encoder.filled? tokens).map (Rows.columnSums encoder.width)

/-- Summing up the rows of tokens gives their presence vector. -/
theorem summed?_eq (encoder : Encoder) (tokens : List String) :
    encoder.summed? tokens = some (encoder.presence tokens) := by
  rw [summed?, filled?_eq, Option.map_some, columnSums_encode]

/-! ### How many tokens are in common -/

/-- There are no more tokens in common than rows. -/
theorem card_common_le_height (encoder : Encoder) (requested derived : Evidence) :
    (encoder.common requested derived).card ≤ encoder.height := by
  have hsubset : encoder.common requested derived ⊆ (encoder.taken requested).toFinset := by
    intro token htoken
    exact List.mem_toFinset.2 (mem_common.1 htoken).1
  calc (encoder.common requested derived).card
      ≤ (encoder.taken requested).toFinset.card := Finset.card_le_card hsubset
    _ ≤ (encoder.taken requested).length := List.toFinset_card_le _
    _ ≤ encoder.height := List.length_take_le _ _

/-- There are no more tokens in common than columns, as each of them has a column of its own. -/
theorem card_common_le_width {encoder : Encoder} {vocabulary : Vocabulary}
    (h : encoder.vocabulary = some vocabulary) (requested derived : Evidence) :
    (encoder.common requested derived).card ≤ encoder.width := by
  have hcolumn : ∀ token ∈ encoder.common requested derived,
      ∃ column, encoder.column? token = some column := by
    intro token htoken
    have hadmits := (mem_common.1 htoken).2.2
    exact Option.isSome_iff_exists.1 ((isSome_column?_iff h).2 hadmits)
  have hbelow : ∀ token ∈ encoder.common requested derived,
      (encoder.column? token).getD 0 ∈ Finset.range encoder.width := by
    intro token htoken
    obtain ⟨column, hsome⟩ := hcolumn token htoken
    rw [hsome, Option.getD_some, Finset.mem_range]
    exact column?_lt hsome
  have hown : ∀ token ∈ encoder.common requested derived,
      ∀ other ∈ encoder.common requested derived,
        (encoder.column? token).getD 0 = (encoder.column? other).getD 0 → token = other := by
    intro token htoken other hother heq
    obtain ⟨column, hsome⟩ := hcolumn token htoken
    obtain ⟨place, hplace⟩ := hcolumn other hother
    rw [hsome, hplace, Option.getD_some, Option.getD_some] at heq
    exact column?_injective hsome (heq ▸ hplace)
  calc (encoder.common requested derived).card
      ≤ (Finset.range encoder.width).card := Finset.card_le_card_of_injOn _ hbelow hown
    _ = encoder.width := Finset.card_range _

end Encoder

namespace Corpus

/-! ### Weights with their failures -/

/-- The sum of the products of two vectors; none if they are not of the same length. -/
def dot? (xs ys : List Nat) : Option Int32 :=
  if xs.length = ys.length then some (dot xs ys) else none

/-- The overlap over all encoders; none if two vectors are not of the same length. -/
def overlap? : List (List Nat) → List (List Nat) → Option Int32
  | requested :: others, present :: rest =>
    (dot? requested present).bind fun product =>
      (overlap? others rest).map fun sum => product + sum
  | _, _ => some 0

/-- The weight of each program for evidence; none if a place outside of a matrix is written or
vectors of different lengths are multiplied. -/
def weights? (corpus : Corpus) (evidence : Evidence) : Option (List Binary64) :=
  (corpus.config.encoders.mapM fun (encoder : Encoder) =>
    encoder.summed? (evidence.get encoder.kind).toList).bind fun requested =>
      corpus.programs.mapM fun program =>
        (overlap? requested program.presence).map weightOfOverlap

/-- There is one vector for each encoder, with an entry for each of its columns. -/
def AreVectorsFor (encoders : List Encoder) (vectors : List (List Nat)) : Prop :=
  List.Forall₂ (fun encoder vector => vector.length = encoder.width) encoders vectors

theorem areVectorsFor_presences (encoders : List Encoder) (evidence : Evidence) :
    AreVectorsFor encoders (presences encoders evidence) := by
  rw [AreVectorsFor, presences, List.forall₂_map_right_iff, List.forall₂_same]
  intro encoder _
  exact encoder.length_presence _

/-- Vectors for the same encoders can be multiplied. -/
theorem overlap?_eq {encoders : List Encoder} {requested present : List (List Nat)}
    (hrequested : AreVectorsFor encoders requested) (hpresent : AreVectorsFor encoders present) :
    overlap? requested present = some (overlap requested present) := by
  induction hrequested generalizing present with
  | nil =>
    cases hpresent
    rfl
  | @cons encoder vector encoders vectors hvector _ ih =>
    cases hpresent with
    | @cons _ other _ others hother hothers =>
      have hdot : dot? vector other = some (dot vector other) :=
        if_pos (hvector.trans hother.symm)
      rw [overlap?, hdot, ih hothers, overlap]
      rfl

/-! ### Sound corpora -/

/-- What a corpus needs for its draws not to fail. -/
structure IsSound (corpus : Corpus) : Prop where
  /-- There is a program. -/
  programs_ne_nil : corpus.programs ≠ []
  /-- Each encoder has a vocabulary, and as many columns as the vocabulary has places. -/
  vocabulary : ∀ encoder ∈ corpus.config.encoders,
    ∃ vocabulary, encoder.vocabulary = some vocabulary ∧ encoder.width = vocabulary.size
  /-- The column of a token is one of the columns. -/
  column_lt : ∀ encoder ∈ corpus.config.encoders, ∀ token column,
    encoder.column? token = some column → column < encoder.width
  /-- Each program has the vectors of the tokens that its calls yield. -/
  presence : ∀ program ∈ corpus.programs,
    program.presence = presences corpus.config.encoders (.ofCalls program.calls)

/-- A corpus that is built from trees is sound, whatever its settings. -/
theorem isSound_corpusOf (config : ModelConfig) {trees : List Tree} (h : trees ≠ []) :
    (corpusOf config trees).IsSound where
  programs_ne_nil := programs_corpusOf_ne_nil config h
  vocabulary encoder hencoder := by
    obtain ⟨own, -, rfl⟩ := List.mem_map.1 hencoder
    obtain ⟨vocabulary, hvocabulary⟩ := exists_vocabulary_learned (yields trees) own
    refine ⟨vocabulary, hvocabulary, ?_⟩
    rw [Encoder.width, hvocabulary]
  column_lt encoder _ token column := Encoder.column?_lt
  presence program hprogram := by
    obtain ⟨tree, -, rfl⟩ := List.mem_map.1 hprogram
    rfl

section

variable {corpus : Corpus}

/-- The vectors of a program can be multiplied with those of any request. -/
theorem IsSound.areVectorsFor (h : corpus.IsSound) {program : CorpusProgram}
    (hprogram : program ∈ corpus.programs) :
    AreVectorsFor corpus.config.encoders program.presence := by
  rw [h.presence program hprogram]
  exact areVectorsFor_presences _ _

/-- The weights are computed without failure. -/
theorem IsSound.weights?_eq (h : corpus.IsSound) (evidence : Evidence) :
    corpus.weights? evidence = some (corpus.weigh evidence) := by
  have hrequested : (corpus.config.encoders.mapM fun (encoder : Encoder) =>
      encoder.summed? (evidence.get encoder.kind).toList) =
        some (presences corpus.config.encoders evidence) :=
    mapM_eq_some_map fun encoder _ => encoder.summed?_eq _
  rw [weights?, hrequested, Option.bind_some]
  refine mapM_eq_some_map fun program hprogram => ?_
  rw [overlap?_eq (areVectorsFor_presences _ evidence) (h.areVectorsFor hprogram), Option.map_some]

end

/-- The most that a program can overlap with a request: for each encoder, as many tokens as it has
rows and columns. -/
def greatestOverlap (corpus : Corpus) : Nat :=
  (corpus.config.encoders.map fun encoder => min encoder.height encoder.width).sum

/-- No tree overlaps with a request by more than that. -/
theorem overlap_le_greatestOverlap (config : ModelConfig) {trees : List Tree} {tree : Tree}
    (h : tree ∈ trees) (requested : Evidence) :
    config.overlap requested (.ofCalls tree.calls) ≤ (corpusOf config trees).greatestOverlap := by
  rw [ModelConfig.overlap, greatestOverlap, corpusOf, encodersFor, List.map_map]
  refine List.sum_le_sum fun encoder _ => ?_
  obtain ⟨vocabulary, hvocabulary⟩ := exists_vocabulary_learned (yields trees) encoder
  rw [← common_learned encoder requested (ofCalls_mem_yields h)]
  exact le_min (Encoder.card_common_le_height _ _ _) (Encoder.card_common_le_width hvocabulary _ _)

/-- A tree weighs at least one unless its overlap is one less than a multiple of `2 ^ 32`. -/
theorem one_le_getElem?_weigh_corpusOf (config : ModelConfig) {trees : List Tree} {tree : Tree}
    {i : Nat} (h : trees[i]? = some tree) (evidence : Evidence) :
    ∃ weight : Binary64, ((corpusOf config trees).weigh evidence)[i]? = some weight ∧
      0 ≤ weight.value ∧
      (1 ≤ weight.value ↔
        config.overlap evidence (.ofCalls tree.calls) % Word.bound32 ≠ Word.bound32 - 1) := by
  refine ⟨_, ?_, value_weightOfOverlap_nonneg _,
    one_le_weightOfOverlap_iff.trans (not_congr ofNat_eq_neg_one_iff)⟩
  rw [weigh_corpusOf, List.getElem?_map, h]
  rfl

/-- An overlap below `2 ^ 31` is not one less than a multiple of `2 ^ 32`. -/
theorem mod_ne_of_lt {o : Nat} (h : o < Word.bound31) : o % Word.bound32 ≠ Word.bound32 - 1 := by
  have hbelow : o < 2 ^ 31 := h
  have hbound : Word.bound32 = 2 ^ 32 := rfl
  rw [hbound]
  omega

/-- Where the greatest overlap is below `2 ^ 31`, every weight is at least one and at most that of
the greatest overlap. -/
theorem bounds_of_mem_weigh_corpusOf {config : ModelConfig} {trees : List Tree}
    (h : (corpusOf config trees).greatestOverlap < Word.bound31) {evidence : Evidence}
    {weight : Binary64} (hweight : weight ∈ (corpusOf config trees).weigh evidence) :
    1 ≤ weight.value ∧
      weight.value ≤ (weightOfOverlap (.ofNat (corpusOf config trees).greatestOverlap)).value := by
  rw [weigh_corpusOf] at hweight
  obtain ⟨tree, htree, rfl⟩ := List.mem_map.1 hweight
  have hle := overlap_le_greatestOverlap config htree evidence
  have hlt := Nat.lt_of_le_of_lt hle h
  have hword : Int32.ofNat (config.overlap evidence (.ofCalls tree.calls)) ≠ -1 :=
    mt ofNat_eq_neg_one_iff.1 (mod_ne_of_lt hlt)
  exact ⟨one_le_weightOfOverlap_iff.2 hword, (weightOfOverlap_le_iff hlt h).2 hle⟩

/-- Where the greatest overlap is below `2 ^ 31`, a program can be drawn for any evidence. -/
theorem canDraw_corpusOf_of_greatestOverlap_lt {config : ModelConfig} {trees : List Tree}
    (htrees : trees ≠ []) (h : (corpusOf config trees).greatestOverlap < Word.bound31)
    (evidence : Evidence) : (corpusOf config trees).CanDraw evidence := by
  obtain ⟨tree, htree⟩ := List.exists_mem_of_ne_nil _ htrees
  have hlt := Nat.lt_of_le_of_lt (overlap_le_greatestOverlap config htree evidence) h
  exact canDraw_corpusOf_iff.2 ⟨tree, htree, mod_ne_of_lt hlt⟩

end Corpus

/-! ### Draws -/

/-- A draw comes to one of the programs of a corpus, or is rejected. -/
def Draw.IsFrom (draw : Draw) (corpus : Corpus) : Prop :=
  (∃ program ∈ corpus.programs, draw = .sampled program.tree program.calls) ∨
    ∃ reason, draw = .inconsistent reason

namespace Corpus

section

variable {ρ : Type} {corpus : Corpus} {choice : IndexSource ρ} {session : Session ρ}

/-- Picking a place comes to the program at the place, or is rejected. -/
theorem isFrom_drawOf {place : Nat} (h : place < corpus.size) :
    (corpus.drawOf place).IsFrom corpus := by
  have hplace : corpus.programs[place]? = some corpus.programs[place] :=
    List.getElem?_eq_getElem h
  simp only [drawOf, hplace]
  split
  · exact Or.inr ⟨_, rfl⟩
  · exact Or.inl ⟨_, List.getElem_mem h, rfl⟩

/-- A faithful session with a sound corpus draws one of the programs if one weighs something, fails
otherwise, and stays faithful. -/
theorem IsSound.draw (h : corpus.IsSound) (hchoice : choice.PicksPlaces)
    (hsession : session.IsFaithful corpus) (evidence : Evidence) :
    let drawn := (corpus.predictor choice).draw evidence session
    (corpus.CanDraw evidence → drawn.1.IsFrom corpus) ∧
      (¬ corpus.CanDraw evidence → drawn.1 = .failed allZero) ∧ drawn.2.IsFaithful corpus := by
  intro drawn
  obtain ⟨hdraw, -, hnext⟩ := draw_of_isFaithful choice hsession evidence
  refine ⟨fun hcan => ?_, fun hcannot => ?_, hnext⟩
  · have hplace := hchoice _ session.source (weigh_ne_nil h.programs_ne_nil evidence)
    rw [length_weigh] at hplace
    rw [recomputing_draw (usableWeights_eq hcan)] at hdraw
    rw [show drawn.1 = _ from hdraw]
    exact isFrom_drawOf hplace
  · exact congrArg Prod.fst (draw_of_not_canDraw choice h.programs_ne_nil hsession hcannot)

/-- A faithful session with a sound corpus answers each of any evidence in this way. -/
theorem IsSound.drawAll (h : corpus.IsSound) (hchoice : choice.PicksPlaces)
    (hsession : session.IsFaithful corpus) (evidences : List Evidence) :
    List.Forall₂ (fun evidence (draw : Draw) =>
        (corpus.CanDraw evidence → draw.IsFrom corpus) ∧
          (¬ corpus.CanDraw evidence → draw = .failed allZero))
      evidences ((corpus.predictor choice).drawAll evidences session).1 := by
  induction evidences generalizing session with
  | nil => exact .nil
  | cons evidence rest ih =>
    obtain ⟨hfrom, hfails, hnext⟩ := h.draw hchoice hsession evidence
    rw [Predictor.drawAll_cons]
    exact .cons ⟨hfrom, hfails⟩ (ih hnext)

end

/-- When draws from a corpus succeed.

Let there be trees, and memory for the matrices of the encoders.  Then there is a corpus of the
trees, for any settings.  Each of its encoders has a vocabulary, and the column of a token is one of
the columns; every program and every request has one vector for each encoder, as long as the
vocabulary.  The weights are computed without failure, there is one for each program, and the place
that is picked with them is that of a program.  A program weighs at least one unless its overlap is
one less than a multiple of `2 ^ 32`.  No overlap is beyond the greatest one, and if that is below
`2 ^ 31`, then every weight is at least one, and none is beyond that of the greatest overlap.

A session with the corpus, from any state of the random numbers, answers every sequence of evidence.
Each draw is one of the programs, or it is rejected for its depth, unless no program weighs anything
for its evidence: then the draw fails.  None does if all overlaps are below `2 ^ 31`. -/
theorem drawAll_succeeds (config : ModelConfig) {trees : List Tree} (htrees : trees ≠ [])
    (hmemory : ∀ encoder ∈ encodersFor config trees, encoder.fits = true) :
    let overlap := fun (evidence : Evidence) (tree : Tree) =>
      config.overlap evidence (.ofCalls tree.calls)
    ∃ corpus : Corpus, ofTrees config trees = .ok corpus ∧ corpus.size = trees.length ∧
      corpus.IsSound ∧
      (∀ program ∈ corpus.programs, AreVectorsFor corpus.config.encoders program.presence) ∧
      (∀ evidence,
        AreVectorsFor corpus.config.encoders (presences corpus.config.encoders evidence) ∧
        corpus.weights? evidence = some (corpus.weigh evidence) ∧
        (corpus.weigh evidence).length = corpus.size ∧
        (∀ stream, (weightedChoice.choose (corpus.weigh evidence) stream).1 < corpus.size) ∧
        (∀ (i : Nat) tree, trees[i]? = some tree →
          ∃ weight : Binary64, (corpus.weigh evidence)[i]? = some weight ∧ 0 ≤ weight.value ∧
            (1 ≤ weight.value ↔ overlap evidence tree % Word.bound32 ≠ Word.bound32 - 1)) ∧
        (∀ tree ∈ trees, overlap evidence tree ≤ corpus.greatestOverlap) ∧
        (corpus.greatestOverlap < Word.bound31 → ∀ weight ∈ corpus.weigh evidence,
          1 ≤ weight.value ∧
            weight.value ≤ (weightOfOverlap (.ofNat corpus.greatestOverlap)).value)) ∧
      ∀ stream evidences,
        let draws := ((corpus.predictor weightedChoice).drawAll evidences (.start stream)).1
        List.Forall₂ (fun evidence (draw : Draw) =>
            ((∃ tree ∈ trees, overlap evidence tree % Word.bound32 ≠ Word.bound32 - 1) →
              draw.IsFrom corpus) ∧
            ((∀ tree ∈ trees, overlap evidence tree % Word.bound32 = Word.bound32 - 1) →
              draw = .failed allZero))
          evidences draws ∧
        ((∀ evidence ∈ evidences, ∀ tree ∈ trees, overlap evidence tree < Word.bound31) →
          ∀ draw ∈ draws, draw.IsFrom corpus) := by
  intro overlap
  have hsound := isSound_corpusOf config htrees
  have hcorpus : ofTrees config trees = .ok (corpusOf config trees) :=
    ofTrees_eq_ok_iff.2 ⟨htrees, hmemory, rfl⟩
  have hsize : (corpusOf config trees).size = trees.length := by
    rw [size, corpusOf, List.length_map]
  refine ⟨_, hcorpus, hsize, hsound, fun _ => hsound.areVectorsFor, ?_, ?_⟩
  · intro evidence
    refine ⟨areVectorsFor_presences _ evidence, hsound.weights?_eq evidence, length_weigh _ _, ?_,
      fun i tree htree => one_le_getElem?_weigh_corpusOf config htree evidence,
      fun tree htree => overlap_le_greatestOverlap config htree evidence,
      fun hgreatest weight hweight => bounds_of_mem_weigh_corpusOf hgreatest hweight⟩
    intro stream
    have hplace := picksPlaces_weightedChoice _ stream
      (weigh_ne_nil hsound.programs_ne_nil evidence)
    rwa [length_weigh] at hplace
  · intro stream evidences draws
    have hdraws := hsound.drawAll picksPlaces_weightedChoice
      (Session.isFaithful_start _ stream) evidences
    refine ⟨hdraws.imp ?_, ?_⟩
    · rintro evidence draw ⟨hfrom, hfails⟩
      refine ⟨fun hweighs => hfrom (canDraw_corpusOf_iff.2 hweighs),
        fun hnone => hfails fun hcan => ?_⟩
      obtain ⟨tree, htree, hweighs⟩ := canDraw_corpusOf_iff.1 hcan
      exact hweighs (hnone tree htree)
    · intro hsmall draw hdraw
      obtain ⟨i, hi, rfl⟩ := List.getElem_of_mem hdraw
      have hi' : i < evidences.length := hdraws.length_eq ▸ hi
      obtain ⟨tree, htree⟩ := List.exists_mem_of_ne_nil _ htrees
      have hbelow := hsmall evidences[i] (List.getElem_mem hi') tree htree
      exact (hdraws.get hi' hi).1 (canDraw_corpusOf_iff.2 ⟨tree, htree, mod_ne_of_lt hbelow⟩)

/-- Settings that were read with a vocabulary which lists a token twice: no draw fails. -/
theorem drawAll_succeeds_repeating :
    let trees := [Tree.calling ["A.a()", "a.A.b(a)"], Tree.calling []]
    ModelConfig.ofValue true ModelConfig.repeatingValue = .ok ModelConfig.repeating ∧
      trees ≠ [] ∧
      (∀ encoder ∈ encodersFor ModelConfig.repeating trees, encoder.fits = true) ∧
      ∃ corpus, ofTrees ModelConfig.repeating trees = .ok corpus ∧ corpus.size = 2 ∧
        (∀ evidence, corpus.weights? evidence = some (corpus.weigh evidence)) ∧
        ∀ seed evidences,
          let session := Session.start (Random.Stream.ofSeed seed)
          let draws := ((corpus.predictor weightedChoice).drawAll evidences session).1
          draws.length = evidences.length ∧ ∀ draw ∈ draws, draw.IsFrom corpus := by
  intro trees
  have hread : ModelConfig.ofValue true ModelConfig.repeatingValue = .ok ModelConfig.repeating := by
    cbv
  have htrees : trees ≠ [] := List.cons_ne_nil _ _
  have hmemory : ∀ encoder ∈ encodersFor ModelConfig.repeating trees, encoder.fits = true := by
    have hall : (encodersFor ModelConfig.repeating trees).all Encoder.fits = true := by cbv
    exact List.all_eq_true.1 hall
  obtain ⟨corpus, hcorpus, hsize, -, -, hweights, hdraws⟩ :=
    drawAll_succeeds ModelConfig.repeating htrees hmemory
  have hgreatest : corpus.greatestOverlap < Word.bound31 := by
    have hown : ofTrees ModelConfig.repeating trees = .ok (corpusOf ModelConfig.repeating trees) :=
      ofTrees_eq_ok_iff.2 ⟨htrees, hmemory, rfl⟩
    have htwo : (corpusOf ModelConfig.repeating trees).greatestOverlap = 2 := rfl
    rw [Except.ok.inj (hcorpus.symm.trans hown), htwo]
    decide
  refine ⟨hread, htrees, hmemory, corpus, hcorpus, hsize, fun evidence => (hweights evidence).2.1,
    fun seed evidences => ?_⟩
  obtain ⟨hall, hsucceed⟩ := hdraws (.ofSeed seed) evidences
  refine ⟨hall.length_eq.symm, hsucceed fun evidence _ tree htree => ?_⟩
  exact Nat.lt_of_le_of_lt ((hweights evidence).2.2.2.2.2.1 tree htree) hgreatest

/-- A program that has as many tokens in common with the evidence as there are words, but one,
weighs nothing, and the draw fails; and there are settings with so many rows that there is no corpus
and nothing is drawn. -/
theorem drawAll_fails :
    let config := ModelConfig.withRows 1431655765
    let tree := Tree.calling (numberedCalls 1431655765)
    let requested := Evidence.ofCalls tree.calls
    let tall := ModelConfig.withRows 0x8000000000000000
    (ModelConfig.ofValue false config.toValue = .ok config ∧
      (∀ encoder ∈ encodersFor config [tree], encoder.fits = true) ∧
      ∃ corpus weight, ofTrees config [tree] = .ok corpus ∧ corpus.weigh requested = [weight] ∧
        weight.value = 0 ∧
        ∀ stream, ((corpus.predictor weightedChoice).draw requested (.start stream)).1 =
          .failed (.inference "invalid sampling weights: All weights are zero in distribution")) ∧
    ModelConfig.ofValue false tall.toValue = .ok tall ∧
      ofTrees tall [Tree.calling []] = .error .crashed := by
  intro config tree requested tall
  obtain ⟨hcorpus, hoverlap, hweights⟩ :=
    @corpusOf_numberedCalls 1431655765 1431655765 (by decide) (by decide) (by decide)
  obtain ⟨htrees, hmemory, -⟩ := ofTrees_eq_ok_iff.1 hcorpus
  have hword : Int32.ofNat (3 * 1431655765) = -1 := by decide
  rw [hword] at hweights
  refine ⟨⟨ModelConfig.ofValue_toValue_withRows _, hmemory, _, _, hcorpus, hweights,
      value_weightOfOverlap_neg_one, fun stream => ?_⟩,
    ModelConfig.ofValue_toValue_withRows _, by cbv⟩
  have hcannot : ¬ (corpusOf config [tree]).CanDraw requested := by
    rintro ⟨weight, hweight, hpos⟩
    rw [hweights, List.mem_singleton] at hweight
    rw [hweight, isZero_weightOfOverlap_iff.2 rfl] at hpos
    cases hpos
  exact ((isSound_corpusOf config htrees).draw picksPlaces_weightedChoice
    (Session.isFaithful_start _ stream) requested).2.1 hcannot

end Corpus

end EvidenceSynthesis
