import EvidenceSynthesis.Proofs.Model.Favour
import EvidenceSynthesis.Proofs.Model.Sessions
import EvidenceSynthesis.Proofs.Search.CountBounds
import EvidenceSynthesis.Proofs.Search.Selection
import Mathlib

/-!
# What a search finds in a corpus

Nothing is assumed of the random choice but that it picks one of the places (`PicksPlaces`).  A
program can be drawn for evidence if some program weighs something (`Corpus.CanDraw`), which is so
unless the overlaps of all programs go around to the word before zero
(`Corpus.canDraw_corpusOf_iff`).  What the draws of a session come to then follows from the places
that are picked (`Corpus.outcome_of_isFaithful`): a run never fails, and its draws are the programs
at these places, of which those that are too deep are rejected.

Draws of equal trees are merged and only the calls of the first of them are kept.  Nothing is lost
by that, as equal trees have the same depth and the same calls: none or all of them are too deep,
and the calls that are kept are those of each of them (`Corpus.answer_drawn_from`).  The number of
their draws is kept in a word, which loses count of a tree that is drawn too often
(`Corpus.answer_loses_count`).
-/

namespace EvidenceSynthesis

variable {ρ : Type}

/-- A choice picks one of the places of a list of weights. -/
def IndexSource.PicksPlaces (choice : IndexSource ρ) : Prop :=
  ∀ weights source, weights ≠ [] → (choice.choose weights source).1 < weights.length

namespace Corpus

theorem picksPlaces_weightedChoice : weightedChoice.PicksPlaces :=
  fun _ _ h => Random.positionOf_lt h _

/-! ### Whether anything can be drawn -/

/-- Some program weighs something, so that a program can be drawn for the evidence. -/
def CanDraw (corpus : Corpus) (evidence : Evidence) : Prop :=
  ∃ weight ∈ corpus.weigh evidence, weight.isZero = false

/-- Why no program can be drawn where none weighs anything. -/
def allZero : PredictorError :=
  .inference "invalid sampling weights: All weights are zero in distribution"

section

variable {corpus : Corpus} {choice : IndexSource ρ} {evidence : Evidence}

/-- A corpus with programs has weights. -/
theorem weigh_ne_nil (h : corpus.programs ≠ []) (evidence : Evidence) :
    corpus.weigh evidence ≠ [] := by
  rw [weigh, ne_eq, List.map_eq_nil_iff]
  exact h

/-- No weight is negative. -/
theorem any_negative_weigh (corpus : Corpus) (evidence : Evidence) :
    ((corpus.weigh evidence).any fun weight => weight.negative && !weight.isZero) = false := by
  refine List.any_eq_false.2 fun weight hweight => ?_
  obtain ⟨program, -, rfl⟩ := List.mem_map.1 hweight
  rw [(weightOfOverlap_spec _).1, Bool.false_and]
  exact Bool.false_ne_true

/-- There are weights to draw with where some program weighs something. -/
theorem usableWeights_eq (h : corpus.CanDraw evidence) :
    corpus.usableWeights evidence = .ok (corpus.weigh evidence) := by
  obtain ⟨weight, hweight, hpos⟩ := h
  have hempty : (corpus.weigh evidence).isEmpty = false :=
    List.isEmpty_eq_false_iff.2 (List.ne_nil_of_mem hweight)
  have hzeros : (corpus.weigh evidence).all Decimal.Binary64.isZero = false :=
    List.all_eq_false.2 ⟨weight, hweight, Bool.not_eq_true _ ▸ hpos⟩
  simp only [usableWeights, weightsFault?, hempty, any_negative_weigh, hzeros, Bool.false_eq_true,
    if_false]

/-- There are none where no program weighs anything. -/
theorem usableWeights_eq_error (hprograms : corpus.programs ≠ []) (h : ¬ corpus.CanDraw evidence) :
    corpus.usableWeights evidence = .error allZero := by
  have hempty : (corpus.weigh evidence).isEmpty = false :=
    List.isEmpty_eq_false_iff.2 (weigh_ne_nil hprograms evidence)
  have hzeros : (corpus.weigh evidence).all Decimal.Binary64.isZero = true := by
    refine List.all_eq_true.2 fun weight hweight => ?_
    by_contra hpos
    exact h ⟨weight, hweight, Bool.eq_false_iff.2 hpos⟩
  simp only [usableWeights, weightsFault?, hempty, any_negative_weigh, hzeros, Bool.false_eq_true,
    if_false, if_true]
  rfl

/-- A program can be drawn from the corpus of trees unless every tree overlaps with the evidence by
one less than a multiple of `2 ^ 32`. -/
theorem canDraw_corpusOf_iff {config : ModelConfig} {trees : List Tree} :
    (corpusOf config trees).CanDraw evidence ↔
      ∃ tree ∈ trees,
        config.overlap evidence (.ofCalls tree.calls) % Word.bound32 ≠ Word.bound32 - 1 := by
  simp only [CanDraw, weigh_corpusOf, List.mem_map, exists_exists_and_eq_and, Bool.eq_false_iff,
    ne_eq, isZero_weightOfOverlap_iff, ofNat_eq_neg_one_iff]

end

/-! ### The places that are picked -/

/-- The place that is picked after `n` others, for the same evidence. -/
def picked (corpus : Corpus) (choice : IndexSource ρ) (evidence : Evidence) (source : ρ) (n : Nat) :
    Nat :=
  (choice.choose (corpus.weigh evidence)
    ((corpus.recomputing choice).stateAfter evidence source n)).1

section

variable {corpus : Corpus} {choice : IndexSource ρ}

/-- What is picked is the place of a program. -/
theorem picked_lt (h : corpus.programs ≠ []) (hchoice : choice.PicksPlaces) (evidence : Evidence)
    (source : ρ) (n : Nat) : corpus.picked choice evidence source n < corpus.programs.length := by
  have hplace := hchoice _ ((corpus.recomputing choice).stateAfter evidence source n)
    (weigh_ne_nil h evidence)
  rwa [length_weigh] at hplace

/-- With weights to draw with, a draw comes to the program at the place that is picked. -/
theorem recomputing_draw {evidence : Evidence} {weights : List Decimal.Binary64}
    (h : corpus.usableWeights evidence = .ok weights) (source : ρ) :
    (corpus.recomputing choice).draw evidence source =
      (corpus.drawOf (choice.choose weights source).1, (choice.choose weights source).2) := by
  simp only [recomputing, h]

/-- After any draws for one evidence, a faithful session is faithful, and its choice is in the state
of the predictor that computes the weights for every draw. -/
theorem stateAfter_of_isFaithful (choice : IndexSource ρ) {session : Session ρ}
    (hsession : session.IsFaithful corpus) (evidence : Evidence) (n : Nat) :
    let last := (corpus.predictor choice).stateAfter evidence session n
    last.IsFaithful corpus ∧
      last.source = (corpus.recomputing choice).stateAfter evidence session.source n := by
  induction n with
  | zero => exact ⟨hsession, rfl⟩
  | succ n ih =>
    obtain ⟨hlast, hsource⟩ := ih
    obtain ⟨-, hnext, hfaithful⟩ := draw_of_isFaithful choice hlast evidence
    rw [hsource] at hnext
    exact ⟨hfaithful, hnext⟩

/-- A draw of a faithful session comes to the program at the place that is picked. -/
theorem outcome_of_isFaithful {evidence : Evidence} (h : corpus.CanDraw evidence)
    {session : Session ρ} (hsession : session.IsFaithful corpus) (n : Nat) :
    (corpus.predictor choice).outcome evidence session n =
      corpus.drawOf (corpus.picked choice evidence session.source n) := by
  obtain ⟨hlast, hsource⟩ := stateAfter_of_isFaithful choice hsession evidence n
  obtain ⟨hdraw, -, -⟩ := draw_of_isFaithful choice hlast evidence
  rw [Predictor.outcome, hdraw, hsource, recomputing_draw (usableWeights_eq h), picked]

/-- Where no program weighs anything, a draw of a faithful session fails and leaves the session as
it is. -/
theorem draw_of_not_canDraw (choice : IndexSource ρ) {evidence : Evidence} {session : Session ρ}
    (hprograms : corpus.programs ≠ []) (hsession : session.IsFaithful corpus)
    (h : ¬ corpus.CanDraw evidence) :
    (corpus.predictor choice).draw evidence session = (.failed allZero, session) := by
  have herror := usableWeights_eq_error hprograms h
  rcases draw_cases choice hsession evidence with ⟨_, hweights, -⟩ | ⟨error, hfails, hdraw⟩
  · rw [herror] at hweights
    cases hweights
  · rw [herror] at hfails
    cases hfails
    exact hdraw

end

/-! ### Programs that are drawn -/

section

variable {config : ModelConfig} {trees : List Tree} {place : Nat}

/-- Picking a tree of a corpus comes to the tree with its calls, or is rejected if it is too
deep. -/
theorem drawOf_corpusOf_cases (config : ModelConfig) {tree : Tree}
    (h : trees[place]? = some tree) :
    (config.decoder.maxAstDepth.toNat < tree.depth ∧
      ∃ reason, (corpusOf config trees).drawOf place = .inconsistent reason) ∨
    (tree.depth ≤ config.decoder.maxAstDepth.toNat ∧
      (corpusOf config trees).drawOf place = .sampled tree tree.calls) := by
  simp only [drawOf, corpusOf, List.getElem?_map, h, Option.map_some, programOfTree]
  rcases Nat.lt_or_ge config.decoder.maxAstDepth.toNat tree.depth with hdeep | hle
  · exact Or.inl ⟨hdeep, _, if_pos hdeep⟩
  · exact Or.inr ⟨hle, if_neg (Nat.not_lt.2 hle)⟩

/-- At a place without a program a draw panics. -/
theorem drawOf_corpusOf_of_none (h : trees[place]? = none) :
    (corpusOf config trees).drawOf place = .crashed := by
  simp only [drawOf, corpusOf, List.getElem?_map, h, Option.map_none]

/-- A draw that picks one of the trees does not fail. -/
theorem interruption?_drawOf_corpusOf (h : place < trees.length) :
    ((corpusOf config trees).drawOf place).interruption? = none := by
  rcases drawOf_corpusOf_cases config (List.getElem?_eq_getElem h) with
    ⟨-, reason, hdraw⟩ | ⟨-, hdraw⟩
  · rw [hdraw]
    rfl
  · rw [hdraw]
    rfl

/-- A draw that brings a candidate brings a tree of the corpus that is not too deep. -/
theorem exists_tree_of_candidate? {candidate : Candidate}
    (h : ((corpusOf config trees).drawOf place).candidate? = some candidate) :
    ∃ tree ∈ trees, tree.depth ≤ config.decoder.maxAstDepth.toNat ∧
      candidate = .ofDraw tree tree.calls := by
  cases htree : trees[place]? with
  | none =>
    rw [drawOf_corpusOf_of_none htree] at h
    cases h
  | some tree =>
    rcases drawOf_corpusOf_cases config htree with
      ⟨-, reason, hdraw⟩ | ⟨hle, hdraw⟩
    · rw [hdraw] at h
      cases h
    · rw [hdraw] at h
      cases h
      exact ⟨tree, List.mem_of_getElem? htree, hle, rfl⟩

/-- The draws of a tree that is not too deep are those that pick a tree equal to it: no tree that
equals it is rejected. -/
theorem any_same_candidate? {candidate : Candidate}
    (hle : candidate.tree.depth ≤ config.decoder.maxAstDepth.toNat) :
    ((corpusOf config trees).drawOf place).candidate?.any candidate.same =
      trees[place]?.any candidate.tree.same := by
  cases htree : trees[place]? with
  | none => rw [drawOf_corpusOf_of_none htree]; rfl
  | some tree =>
    rcases drawOf_corpusOf_cases config htree with
      ⟨hdeep, reason, hdraw⟩ | ⟨-, hdraw⟩
    · have hother : candidate.tree.same tree = false := by
        refine Bool.eq_false_iff.2 fun hsame => ?_
        rw [Tree.depth_eq_of_same hsame] at hle
        exact absurd hdeep (Nat.not_lt.2 hle)
      rw [hdraw, Option.any_some, hother]
      rfl
    · rw [hdraw]
      rfl

end

/-! ### Runs -/

section

variable {config : ModelConfig} {trees : List Tree} {choice : IndexSource ρ} {session : Session ρ}

/-- Where a program can be drawn, a search in a corpus comes to a run: a draw is the program at the
place that is picked, and none fails. -/
theorem sample_corpusOf {evidence : Evidence} (htrees : trees ≠ [])
    (hdraw : (corpusOf config trees).CanDraw evidence) (hchoice : choice.PicksPlaces)
    (hsession : session.IsFaithful (corpusOf config trees)) (search : Search) :
    let predictor := (corpusOf config trees).predictor choice
    let picked := (corpusOf config trees).picked choice evidence session.source
    let n := search.drawCount predictor evidence session
    (∀ i, picked i < trees.length) ∧
      (∀ i, predictor.outcome evidence session i = (corpusOf config trees).drawOf (picked i)) ∧
      search.sample predictor evidence session =
        (.ok (search.runOf predictor evidence session n), predictor.stateAfter evidence session n) ∧
      search.drawsMade predictor evidence session = predictor.transcript evidence session n := by
  intro predictor picked n
  have hprograms := programs_corpusOf_ne_nil config htrees
  have hpicked : ∀ i, picked i < trees.length := by
    intro i
    have hlt := picked_lt hprograms hchoice evidence session.source i
    rwa [corpusOf, List.length_map] at hlt
  have houtcome : ∀ i, predictor.outcome evidence session i =
      (corpusOf config trees).drawOf (picked i) :=
    outcome_of_isFaithful hdraw hsession
  have hnone : ∀ i < n, (predictor.outcome evidence session i).interruption? = none := by
    intro i _
    rw [houtcome]
    exact interruption?_drawOf_corpusOf (hpicked i)
  exact ⟨hpicked, houtcome, search.sample_of_no_interruption predictor evidence session hnone,
    search.drawsMade_of_no_interruption predictor evidence session hnone⟩

section

variable {σ : Type} {predictor : Predictor σ} {evidence : Evidence} {state : σ} {picked : Nat → Nat}

/-- Where a draw is the program at the place that is picked, a transcript is that of the places. -/
theorem transcript_eq_map_drawOf {corpus : Corpus}
    (h : ∀ i, predictor.outcome evidence state i = corpus.drawOf (picked i)) (n : Nat) :
    predictor.transcript evidence state n = ((List.range n).map picked).map corpus.drawOf := by
  rw [Predictor.transcript_eq_map, List.map_map]
  exact List.map_congr_left fun i _ => h i

/-- Where every tree is too deep, a search makes all of its draws, and rejects them. -/
theorem runOf_of_deep (hpicked : ∀ i, picked i < trees.length)
    (h : ∀ i, predictor.outcome evidence state i = (corpusOf config trees).drawOf (picked i))
    (hdeep : ∀ tree ∈ trees, config.decoder.maxAstDepth.toNat < tree.depth) (search : Search) :
    let n := search.drawCount predictor evidence state
    let run := search.runOf predictor evidence state n
    n = search.limits.maxDraws.toNat ∧ run.rejected = n ∧ search.select run evidence = [] := by
  refine search.runOf_of_inconsistent predictor evidence state fun i => ?_
  have hplace := List.getElem?_eq_getElem (hpicked i)
  rw [h]
  rcases drawOf_corpusOf_cases config hplace with ⟨-, hreason⟩ | ⟨hle, -⟩
  · exact hreason
  · exact absurd (hdeep _ (List.mem_of_getElem? hplace)) (Nat.not_lt.2 hle)

end

/-- A corpus of one tree that is not too deep is drawn from by drawing the tree again and again. -/
theorem outcome_corpusOf_singleton {evidence : Evidence} {tree : Tree}
    (hdraw : (corpusOf config [tree]).CanDraw evidence) (hchoice : choice.PicksPlaces)
    (hsession : session.IsFaithful (corpusOf config [tree]))
    (hle : tree.depth ≤ config.decoder.maxAstDepth.toNat) (n : Nat) :
    ((corpusOf config [tree]).predictor choice).outcome evidence session n =
      .sampled tree tree.calls := by
  have hprograms : (corpusOf config [tree]).programs ≠ [] := List.cons_ne_nil _ _
  have hplace := picked_lt hprograms hchoice evidence session.source n
  rw [outcome_of_isFaithful hdraw hsession, Nat.lt_one_iff.1 hplace]
  rcases @drawOf_corpusOf_cases [tree] 0 config tree rfl with ⟨hdeep, -⟩ | ⟨-, hsampled⟩
  · exact absurd hle (Nat.not_le.2 hdeep)
  · exact hsampled

end

/-! ### What is found -/

section

variable {config : ModelConfig} {trees : List Tree} {places : List Nat}

/-- A candidate of a pool of draws holds a tree of the corpus that is not too deep, with the calls
of every tree that equals it. -/
theorem tree_of_reflects {pool : Pool}
    (h : pool.Reflects
      ((places.map (corpusOf config trees).drawOf).filterMap Draw.candidate?))
    {entry : PoolEntry} (hentry : entry ∈ pool.entries) :
    entry.candidate.tree ∈ trees ∧
      ∀ tree ∈ trees, tree.same entry.candidate.tree = true →
        tree.depth ≤ config.decoder.maxAstDepth.toNat ∧
          entry.candidate.calls = .ofList tree.calls := by
  obtain ⟨draw, hdraw, hcandidate⟩ := List.mem_filterMap.1 (h.mem_of_mem hentry)
  obtain ⟨place, -, rfl⟩ := List.mem_map.1 hdraw
  obtain ⟨drawn, hdrawn, hle, hcandidate⟩ := exists_tree_of_candidate? hcandidate
  rw [hcandidate]
  refine ⟨hdrawn, fun tree _ hsame => ⟨?_, ?_⟩⟩
  · have hdepth : tree.depth = drawn.depth := Tree.depth_eq_of_same hsame
    rwa [hdepth]
  · exact TokenSet.ofList_congr fun call => (Tree.perm_calls_of_same hsame).mem_iff.symm

/-- The count of a candidate is the number of the places that pick a tree equal to it. -/
theorem count_of_reflects {pool : Pool}
    (h : pool.Reflects
      ((places.map (corpusOf config trees).drawOf).filterMap Draw.candidate?))
    {entry : PoolEntry} (hentry : entry ∈ pool.entries) :
    entry.count = UInt32.ofNat
      (places.countP fun place => trees[place]?.any entry.candidate.tree.same) := by
  obtain ⟨hmem, hequal⟩ := tree_of_reflects h hentry
  have hle := (hequal _ hmem entry.candidate.same_refl).1
  rw [h.count entry hentry, List.filterMap_map, List.countP_filterMap]
  refine congrArg UInt32.ofNat (List.countP_congr fun place _ => ?_)
  rw [← any_same_candidate? hle, Function.comp_apply]
  cases ((corpusOf config trees).drawOf place).candidate? with
  | none => exact Iff.rfl
  | some candidate => exact Iff.rfl

/-- As a number, a count is the number of those places exactly if a word holds it. -/
theorem toNat_count_of_reflects {pool : Pool}
    (h : pool.Reflects
      ((places.map (corpusOf config trees).drawOf).filterMap Draw.candidate?))
    {entry : PoolEntry} (hentry : entry ∈ pool.entries) :
    let drawn := places.countP fun place => trees[place]?.any entry.candidate.tree.same
    entry.count.toNat = drawn ↔ drawn < Word.bound32 := by
  intro drawn
  rw [count_of_reflects h hentry, UInt32.toNat_ofNat']
  exact Nat.mod_eq_iff_lt (by decide)

end

/-- Where no program weighs anything, a search fails at its first draw. -/
theorem answer_of_not_canDraw {corpus : Corpus} {choice : IndexSource ρ} {session : Session ρ}
    (hprograms : corpus.programs ≠ []) (hsession : session.IsFaithful corpus) {evidence : Evidence}
    (h : ¬ corpus.CanDraw evidence) (search : Search) :
    search.answer (corpus.predictor choice) evidence session =
      (.error (.failed allZero), session) := by
  have hdraw := draw_of_not_canDraw choice hprograms hsession h
  have hfirst : ((corpus.predictor choice).outcome evidence session 0).interruption? =
      some (.failed allZero) := by
    rw [Predictor.outcome, Predictor.stateAfter, hdraw]
    rfl
  have hsample := search.sample_of_first_interruption _ evidence session
    (search.drawCount_pos _ evidence session) (fun _ hi => absurd hi (Nat.not_lt_zero _)) hfirst
  rw [Search.answer, hsample]
  simp only [Predictor.stateAfter, hdraw]

/-- What a search in a corpus finds, whatever places are picked.

Let the overlap of some tree with the evidence not be one less than a multiple of `2 ^ 32`.
Whatever was drawn before, the search then comes to a run whose draws are the programs at the places
that are picked.  Each candidate of the answer holds a tree of the corpus that is not too deep, with
the calls of each tree of the corpus that equals it; the calls cover the evidence; and its count is
the number of draws, of those that were made, for which a tree equal to it was picked, as a 32-bit
word.  So the count is that number exactly if the number is below `2 ^ 32`, which it is in a search
that allows fewer draws.  Where every tree is too deep, all draws are made and rejected, and the
answer is empty.

Otherwise no tree weighs anything: the search fails, and changes nothing. -/
theorem answer_drawn_from (config : ModelConfig) (trees : List Tree) {corpus : Corpus}
    (hcorpus : ofTrees config trees = .ok corpus) {choice : IndexSource ρ}
    (hchoice : choice.PicksPlaces) (earlier : List Evidence) (source : ρ) (search : Search)
    (evidence : Evidence) :
    let predictor := corpus.predictor choice
    let session := (predictor.drawAll earlier (.start source)).2
    let picked := corpus.picked choice evidence session.source
    let limit := config.decoder.maxAstDepth.toNat
    let overlap := fun tree : Tree => config.overlap evidence (.ofCalls tree.calls)
    ((∃ tree ∈ trees, overlap tree % Word.bound32 ≠ Word.bound32 - 1) →
      ∃ run final,
        search.sample predictor evidence session = (.ok run, final) ∧
        search.answer predictor evidence session = (.ok (search.select run evidence), final) ∧
        search.drawsMade predictor evidence session =
          (List.range run.attempts).map (fun n => corpus.drawOf (picked n)) ∧
        run.attempts ≤ search.limits.maxDraws.toNat ∧
        (∀ n, picked n < trees.length) ∧
        (∀ candidate ∈ search.select run evidence,
          let drawn := (List.range run.attempts).countP fun n =>
            trees[picked n]?.any candidate.tree.same
          candidate.tree ∈ trees ∧ candidate.tree.depth ≤ limit ∧
          (∀ tree ∈ trees, tree.same candidate.tree = true →
            tree.depth ≤ limit ∧ candidate.calls = .ofList tree.calls) ∧
          evidence.isCoveredBy candidate.calls.toList = true ∧
          candidate.count = UInt32.ofNat drawn ∧
          (candidate.count.toNat = drawn ↔ drawn < Word.bound32) ∧
          (search.limits.maxDraws.toNat < Word.bound32 → candidate.count.toNat = drawn)) ∧
        ((∀ tree ∈ trees, limit < tree.depth) →
          run.attempts = search.limits.maxDraws.toNat ∧ run.rejected = run.attempts ∧
            search.select run evidence = [])) ∧
    ((∀ tree ∈ trees, overlap tree % Word.bound32 = Word.bound32 - 1) →
      search.answer predictor evidence session = (.error (.failed allZero), session)) := by
  obtain ⟨htrees, -, rfl⟩ := ofTrees_eq_ok_iff.1 hcorpus
  intro predictor session picked limit overlap
  have hsession : session.IsFaithful (corpusOf config trees) :=
    (drawAll_of_isFaithful choice (Session.isFaithful_start _ source) earlier).2.2
  refine ⟨fun hweighs => ?_, fun hnone => ?_⟩
  · obtain ⟨hpicked, houtcome, hsample, hmade⟩ :=
      sample_corpusOf htrees (canDraw_corpusOf_iff.2 hweighs) hchoice hsession search
    set n := search.drawCount predictor evidence session
    set run := search.runOf predictor evidence session n
    have hallowed : run.attempts ≤ search.limits.maxDraws.toNat :=
      search.drawCount_le predictor evidence session
    have hdraws := transcript_eq_map_drawOf houtcome n
    have hreflects : run.pool.Reflects
        ((((List.range n).map picked).map (corpusOf config trees).drawOf).filterMap
          Draw.candidate?) := by
      rw [← hdraws]
      exact Pool.reflects_observeAll _
    refine ⟨run, predictor.stateAfter evidence session n, hsample,
      Search.answer_eq_ok_iff.2 ⟨run, hsample, rfl⟩, ?_, hallowed, hpicked, ?_,
      fun hdeep => runOf_of_deep hpicked houtcome hdeep search⟩
    · rw [hmade, hdraws, List.map_map]
      rfl
    · intro candidate hcandidate drawn
      obtain ⟨entry, hentry, hcovers, rfl⟩ := Search.mem_select_iff.1 hcandidate
      have hmem := List.mem_of_mem_take hentry
      obtain ⟨htree, hequal⟩ := tree_of_reflects hreflects hmem
      have hdrawn : drawn = ((List.range n).map picked).countP fun place =>
          trees[place]?.any entry.candidate.tree.same := by
        rw [List.countP_map]
        rfl
      have htrue : entry.count.toNat = drawn ↔ drawn < Word.bound32 := by
        rw [hdrawn]
        exact toNat_count_of_reflects hreflects hmem
      refine ⟨htree, (hequal _ htree entry.candidate.same_refl).1, hequal,
        PoolEntry.isCoveredBy_calls_iff.2 hcovers, ?_, htrue, fun hfew => htrue.2 ?_⟩
      · rw [hdrawn]
        exact count_of_reflects hreflects hmem
      · calc drawn ≤ (List.range run.attempts).length := List.countP_le_length
          _ = run.attempts := List.length_range
          _ ≤ search.limits.maxDraws.toNat := hallowed
          _ < Word.bound32 := hfew
  · refine answer_of_not_canDraw (programs_corpusOf_ne_nil config htrees) hsession
      (fun hdraw => ?_) search
    obtain ⟨tree, htree, hweighs⟩ := canDraw_corpusOf_iff.1 hdraw
    exact hweighs (hnone tree htree)

/-! ### Picking in turn -/

/-- The choice that picks the places in turn. -/
def inTurn : IndexSource Nat where
  choose weights n := (n % weights.length, n + 1)

theorem picksPlaces_inTurn : inTurn.PicksPlaces :=
  fun _ _ h => Nat.mod_lt _ (List.length_pos_iff.2 h)

/-- The predictor that draws the programs in turn, whatever they weigh. -/
def turns (corpus : Corpus) : Predictor Nat where
  draw _ n := (corpus.drawOf (n % corpus.size), n + 1)

/-- Every draw takes one turn. -/
theorem stateAfter_turns (corpus : Corpus) (evidence : Evidence) (start n : Nat) :
    corpus.turns.stateAfter evidence start n = start + n := by
  induction n with
  | zero => rfl
  | succ n ih => rw [Predictor.stateAfter, ih]; rfl

/-- Where a program can be drawn, the places are picked in turn. -/
theorem picked_inTurn {corpus : Corpus} {evidence : Evidence} (h : corpus.CanDraw evidence)
    (start n : Nat) : corpus.picked inTurn evidence start n = (start + n) % corpus.size := by
  have hstate : (corpus.recomputing inTurn).stateAfter evidence start n = start + n := by
    induction n with
    | zero => rfl
    | succ n ih =>
      rw [Predictor.stateAfter, ih, recomputing_draw (usableWeights_eq h)]
      rfl
  rw [picked, hstate]
  exact congrArg (fun length => (start + n) % length) (corpus.length_weigh evidence)

/-- Where a program can be drawn, the programs are drawn in turn. -/
theorem outcome_inTurn {corpus : Corpus} {evidence : Evidence} (h : corpus.CanDraw evidence)
    (start n : Nat) :
    (corpus.predictor inTurn).outcome evidence (.start start) n =
      corpus.turns.outcome evidence start n := by
  rw [outcome_of_isFaithful h (Session.isFaithful_start corpus start), Session.start,
    picked_inTurn h, Predictor.outcome, stateAfter_turns]
  rfl

/-- Four draws pick a tree, a tree that is too deep, the first one with its members in another
order, and the first one again. -/
theorem answer_drawn_from_merged :
    let config := { ModelConfig.withRows 2 with decoder := ⟨16, 0, none⟩ }
    let tree : Tree := ⟨[("a", .null), ("_call", .string "f()")], by
      simp [Json.Value.HasDistinctNames, Json.Value.MembersHaveDistinctNames,
        Json.Members.names]⟩
    let turned : Tree := ⟨[("_call", .string "f()"), ("a", .null)], by
      simp [Json.Value.HasDistinctNames, Json.Value.MembersHaveDistinctNames,
        Json.Members.names]⟩
    let trees := [tree, .single "deep", turned]
    let search : Search := ⟨⟨4, 10, 10⟩, by decide⟩
    let evidence := Evidence.empty.add .apiCalls ["f"]
    ∃ corpus candidate final, ofTrees config trees = .ok corpus ∧ inTurn.PicksPlaces ∧
      (∃ tree ∈ trees,
        config.overlap evidence (.ofCalls tree.calls) % Word.bound32 ≠ Word.bound32 - 1) ∧
      search.answer (corpus.predictor inTurn) evidence (.start 0) = (.ok [candidate], final) ∧
      candidate.tree = tree ∧ candidate.calls = .ofList turned.calls ∧
      candidate.count.toNat = 3 := by
  intro config tree turned trees search evidence
  have hcorpus : ofTrees config trees = .ok (corpusOf config trees) := by cbv
  have hweighs : ∃ tree ∈ trees,
      config.overlap evidence (.ofCalls tree.calls) % Word.bound32 ≠ Word.bound32 - 1 :=
    ⟨tree, List.mem_cons_self, by cbv⟩
  have hdraw := canDraw_corpusOf_iff.2 hweighs
  have hsame : turned.same tree = true := by cbv
  have hturns : ∃ run candidate, search.sample (corpusOf config trees).turns evidence 0 =
        (.ok run, 4) ∧ run.attempts = 4 ∧
      search.select run evidence = [candidate] ∧ candidate.tree = tree :=
    ⟨_, _, by cbv, rfl, by cbv, rfl⟩
  obtain ⟨run, candidate, hrun, hattempts, hselected, htree⟩ := hturns
  obtain ⟨last, final, hsample, hanswer, -, -, -, hcandidates, -⟩ :=
    (answer_drawn_from config trees hcorpus picksPlaces_inTurn [] 0 search evidence).1 hweighs
  obtain rfl : run = last := by
    have hown := search.sample_eq_ok_of_outcome_eq _ _ _ (outcome_inTurn hdraw 0) hrun
    exact Except.ok.inj (congrArg Prod.fst (hown.symm.trans hsample))
  obtain ⟨-, -, hequal, -, -, -, hcount⟩ :=
    hcandidates candidate (hselected ▸ List.mem_singleton_self candidate)
  rw [htree, hattempts] at hcount
  rw [htree] at hequal
  have hdrawn : ((List.range 4).countP fun n =>
      trees[(corpusOf config trees).picked inTurn evidence 0 n]?.any tree.same) = 3 := by
    simp only [picked_inTurn hdraw]
    cbv
  rw [hselected] at hanswer
  exact ⟨_, candidate, final, hcorpus, picksPlaces_inTurn, hweighs, hanswer, htree,
    (hequal turned (by simp [trees]) hsame).2, (hcount (by decide)).trans hdrawn⟩

/-- In a corpus of one tree, a search that allows `2 ^ 32` draws makes all of them, each of which
picks the tree, and answers with the tree and a count of zero. -/
theorem answer_loses_count :
    let config := ModelConfig.withRows 1
    let tree := Tree.single "A"
    let search : Search := ⟨⟨0x100000000, 10, 10⟩, by decide⟩
    ModelConfig.ofValue false config.toValue = .ok config ∧
    ∃ corpus run candidate final, ofTrees config [tree] = .ok corpus ∧ inTurn.PicksPlaces ∧
      search.sample (corpus.predictor inTurn) .empty (.start 0) = (.ok run, final) ∧
      search.answer (corpus.predictor inTurn) .empty (.start 0) = (.ok [candidate], final) ∧
      candidate.tree = tree ∧ candidate.count.toNat = 0 ∧
      ((List.range run.attempts).countP fun n =>
        [tree][corpus.picked inTurn .empty 0 n]?.any candidate.tree.same) = 0x100000000 := by
  intro config tree search
  have hcorpus : ofTrees config [tree] = .ok (corpusOf config [tree]) := by cbv
  have hdraw : (corpusOf config [tree]).CanDraw .empty :=
    canDraw_corpusOf_iff.2 ⟨tree, List.mem_singleton_self _, by cbv⟩
  have hpicked : ∀ n, (corpusOf config [tree]).picked inTurn .empty 0 n = 0 := by
    intro n
    rw [picked_inTurn hdraw]
    exact Nat.mod_one _
  have hconstant := outcome_corpusOf_singleton hdraw picksPlaces_inTurn
    (Session.isFaithful_start _ 0) (by decide)
  obtain ⟨run, hrun, hattempts, hpool⟩ :=
    search.sampleWithin_of_constant hconstant (Word.bound32 - 1)
  have hsample : search.sample ((corpusOf config [tree]).predictor inTurn) .empty (.start 0) = _ :=
    hrun
  have hselected : search.select run .empty = [⟨tree, .ofList tree.calls, 0⟩] := by
    rw [Search.select, hpool]
    rfl
  have hanswer := Search.answer_eq_ok_iff.2 ⟨run, hsample, hselected.symm⟩
  refine ⟨ModelConfig.ofValue_toValue_withRows 1, _, run, ⟨tree, .ofList tree.calls, 0⟩, _, hcorpus,
    picksPlaces_inTurn, hsample, hanswer, rfl, rfl, ?_⟩
  have hall : ∀ n ∈ List.range run.attempts,
      [tree][(corpusOf config [tree]).picked inTurn .empty 0 n]?.any tree.same = true := by
    intro n _
    rw [hpicked]
    exact Candidate.same_refl (.ofDraw tree tree.calls)
  rw [List.countP_eq_length.2 hall, List.length_range, hattempts]
  rfl

end Corpus

end EvidenceSynthesis
