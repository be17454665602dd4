import EvidenceSynthesis.Model.Corpus
import EvidenceSynthesis.Proofs.Search.Transcript

/-!
# Remembered weights

A session with a corpus remembers the weights of the evidence for which it drew last, and draws with
them as long as it is asked for the same evidence.  The corpus does not change, so the weights that
are remembered for evidence are those that would be computed again: the session is *faithful*
(`Corpus.Session.IsFaithful`).  It is so at the start, and every draw keeps it so, whether it finds
weights, computes them or fails.

A faithful session draws like `Corpus.recomputing`, the predictor that computes the weights for
every draw and remembers nothing (`Corpus.draw_of_isFaithful`).  So it does over any sequence of
evidence (`Corpus.drawAll_eq_recomputing`).
-/

namespace EvidenceSynthesis

/-- The draws that answer evidence one after another, and the state after them. -/
def Predictor.drawAll {σ : Type} (predictor : Predictor σ) : List Evidence → σ → List Draw × σ
  | [], state => ([], state)
  | evidence :: rest, state =>
    let (draw, state) := predictor.draw evidence state
    let (draws, state) := drawAll predictor rest state
    (draw :: draws, state)

theorem Predictor.drawAll_cons {σ : Type} (predictor : Predictor σ) (evidence : Evidence)
    (rest : List Evidence) (state : σ) :
    predictor.drawAll (evidence :: rest) state =
      ((predictor.draw evidence state).1 ::
          (predictor.drawAll rest (predictor.draw evidence state).2).1,
        (predictor.drawAll rest (predictor.draw evidence state).2).2) := rfl

namespace Corpus

variable {ρ : Type}

/-- The corpus as a predictor that remembers nothing but the state of the choice: the weights are
computed for every draw. -/
def recomputing (corpus : Corpus) (choice : IndexSource ρ) : Predictor ρ where
  draw evidence source :=
    match corpus.usableWeights evidence with
    | .ok weights =>
      let (index, source) := choice.choose weights source
      (corpus.drawOf index, source)
    | .error error => (.failed error, source)

/-- What a session remembers is what would be computed for the same evidence. -/
def Session.IsFaithful (corpus : Corpus) (session : Session ρ) : Prop :=
  ∀ evidence weights, session.recent = some (evidence, weights) →
    corpus.usableWeights evidence = .ok weights

variable {corpus : Corpus} {session : Session ρ}

/-- A session that remembers nothing is faithful. -/
theorem Session.isFaithful_start (corpus : Corpus) (source : ρ) :
    (Session.start source).IsFaithful corpus := by
  intro evidence weights h
  cases h

/-- What is recalled is what was remembered last. -/
theorem Session.recent_of_recall? {evidence : Evidence} {weights : List Decimal.Binary64}
    (h : session.recall? evidence = some weights) : session.recent = some (evidence, weights) := by
  rw [Session.recall?] at h
  split at h
  · rename_i last remembered hrecent
    split at h
    · rename_i heq
      cases h
      rw [hrecent, heq]
    · cases h
  · cases h

/-! ### One draw -/

/-- A draw with the weights of the evidence is that of the predictor which computes them. -/
theorem drawWith_eq (choice : IndexSource ρ) {evidence : Evidence} {weights : List Decimal.Binary64}
    (h : corpus.usableWeights evidence = .ok weights) (source : ρ) :
    corpus.drawWith choice evidence weights source =
      (((corpus.recomputing choice).draw evidence source).1,
        ⟨((corpus.recomputing choice).draw evidence source).2, some (evidence, weights)⟩) := by
  simp only [recomputing, h]
  rfl

/-- A faithful session either draws with the weights of the evidence, or there are none that can be
drawn with, and it stays as it is. -/
theorem draw_cases (choice : IndexSource ρ) (h : session.IsFaithful corpus) (evidence : Evidence) :
    (∃ weights, corpus.usableWeights evidence = .ok weights ∧
      (corpus.predictor choice).draw evidence session =
        corpus.drawWith choice evidence weights session.source) ∨
    ∃ error, corpus.usableWeights evidence = .error error ∧
      (corpus.predictor choice).draw evidence session = (.failed error, session) := by
  cases hrecall : session.recall? evidence with
  | some weights =>
    refine Or.inl ⟨weights, h _ _ (Session.recent_of_recall? hrecall), ?_⟩
    simp only [predictor, hrecall]
  | none =>
    cases hweights : corpus.usableWeights evidence with
    | ok weights =>
      refine Or.inl ⟨weights, rfl, ?_⟩
      simp only [predictor, hrecall, hweights]
    | error error =>
      refine Or.inr ⟨error, rfl, ?_⟩
      simp only [predictor, hrecall, hweights]

/-- A faithful session draws as if the weights were computed again, and stays faithful. -/
theorem draw_of_isFaithful (choice : IndexSource ρ) (h : session.IsFaithful corpus)
    (evidence : Evidence) :
    let remembering := (corpus.predictor choice).draw evidence session
    let recomputed := (corpus.recomputing choice).draw evidence session.source
    remembering.1 = recomputed.1 ∧ remembering.2.source = recomputed.2 ∧
      remembering.2.IsFaithful corpus := by
  intro remembering recomputed
  rcases draw_cases choice h evidence with ⟨weights, hweights, hdraw⟩ | ⟨error, herror, hdraw⟩
  · have hremembering : remembering = (recomputed.1, ⟨recomputed.2, some (evidence, weights)⟩) :=
      hdraw.trans (drawWith_eq choice hweights session.source)
    rw [hremembering]
    refine ⟨rfl, rfl, ?_⟩
    rintro _ _ ⟨⟩
    exact hweights
  · have hremembering : remembering = (.failed error, session) := hdraw
    have hrecomputed : recomputed = (.failed error, session.source) := by
      simp only [recomputed, recomputing, herror]
    rw [hremembering, hrecomputed]
    exact ⟨rfl, rfl, h⟩

/-! ### Many draws -/

/-- A faithful session draws for any evidence as if the weights were computed for every draw, and
stays faithful. -/
theorem drawAll_of_isFaithful (choice : IndexSource ρ) (h : session.IsFaithful corpus)
    (evidences : List Evidence) :
    let remembering := (corpus.predictor choice).drawAll evidences session
    let recomputed := (corpus.recomputing choice).drawAll evidences session.source
    remembering.1 = recomputed.1 ∧ remembering.2.source = recomputed.2 ∧
      remembering.2.IsFaithful corpus := by
  induction evidences generalizing session with
  | nil => exact ⟨rfl, rfl, h⟩
  | cons evidence rest ih =>
    obtain ⟨hdraw, hsource, hnext⟩ := draw_of_isFaithful choice h evidence
    obtain ⟨hdraws, hlast, hfaithful⟩ := ih hnext
    rw [hsource] at hdraws hlast
    rw [Predictor.drawAll_cons, Predictor.drawAll_cons]
    exact ⟨congrArg₂ List.cons hdraw hdraws, hlast, hfaithful⟩

/-- That weights are remembered cannot be seen: after any draws for any evidence, the draws for any
further evidence, in whatever order and with whatever repetitions, and the state of the choice after
them are those of the predictor that computes the weights for every draw.  And what is remembered in
the end are the weights of the evidence that they are remembered for. -/
theorem drawAll_eq_recomputing (corpus : Corpus) (choice : IndexSource ρ)
    (earlier evidences : List Evidence) (source : ρ) :
    let session := ((corpus.predictor choice).drawAll earlier (.start source)).2
    let remembering := (corpus.predictor choice).drawAll evidences session
    let recomputed := (corpus.recomputing choice).drawAll evidences session.source
    session.source = ((corpus.recomputing choice).drawAll earlier source).2 ∧
      remembering.1 = recomputed.1 ∧ remembering.2.source = recomputed.2 ∧
      ∀ evidence weights, remembering.2.recent = some (evidence, weights) →
        corpus.usableWeights evidence = .ok weights := by
  intro session remembering recomputed
  obtain ⟨-, hsource, hsession⟩ :=
    drawAll_of_isFaithful choice (Session.isFaithful_start corpus source) earlier
  obtain ⟨hdraws, hend, hfaithful⟩ := drawAll_of_isFaithful choice hsession evidences
  exact ⟨hsource, hdraws, hend, hfaithful⟩

end Corpus

end EvidenceSynthesis
