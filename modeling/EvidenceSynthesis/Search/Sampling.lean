import EvidenceSynthesis.Search.Limits
import EvidenceSynthesis.Search.Pool
import EvidenceSynthesis.Search.Predictor

/-!
# Sampling searches

A search draws programs until the first candidate leads by the gap or the draws are
used up.  A failure of the predictor ends it at once.  Of the candidates that come out
first, those are the answer whose calls cover the evidence.
-/

namespace EvidenceSynthesis

/-- Why a run came to its end. -/
inductive StopReason where
  /-- The first candidate led by the gap. -/
  | confidenceGap
  /-- All draws were made. -/
  | budgetExhausted
  deriving Repr, DecidableEq

/-- The name of a reason. -/
def StopReason.name : StopReason → String
  | confidenceGap => "confidence-gap"
  | budgetExhausted => "budget-exhausted"

/-- What a run leaves behind. -/
structure Run where
  pool : Pool
  /-- The number of draws. -/
  attempts : Nat
  /-- The number of draws that were rejected. -/
  rejected : Nat
  stop : StopReason

/-- A search with limits of which none is zero. -/
structure Search where
  limits : Limits
  valid : limits.IsValid

namespace Search

variable {σ : Type}

/-- The search with the given limits. -/
def ofLimits (limits : Limits) : Except SearchError Search :=
  limits.validate.map fun valid => ⟨valid.1, valid.2⟩

/-- Whether the first candidate leads by the gap. -/
def isDecided (search : Search) (pool : Pool) : Bool :=
  pool.leadingGap?.any fun gap => search.limits.gapThreshold ≤ gap

/-- Goes on with a run that has drawn `attempts` times and may draw `remaining` times
more. -/
def sampleFrom (search : Search) (predictor : Predictor σ) (evidence : Evidence)
    (pool : Pool) (attempts rejected : Nat) (remaining : Nat) (state : σ) :
    Except Interruption Run × σ :=
  match remaining with
  | 0 => (.ok ⟨pool, attempts, rejected, .budgetExhausted⟩, state)
  | remaining + 1 =>
    match predictor.draw evidence state with
    | (.sampled tree calls, state) =>
      let pool := (pool.observe (.ofDraw tree calls)).2
      if search.isDecided pool then
        (.ok ⟨pool, attempts + 1, rejected, .confidenceGap⟩, state)
      else
        search.sampleFrom predictor evidence pool (attempts + 1) rejected remaining state
    | (.inconsistent _, state) =>
      search.sampleFrom predictor evidence pool (attempts + 1) (rejected + 1) remaining state
    | (.failed error, state) => (.error (.failed error), state)
    | (.crashed, state) => (.error .crashed, state)

/-- Draws until the first candidate leads by the gap or the draws are used up. -/
def sample (search : Search) (predictor : Predictor σ) (evidence : Evidence) (state : σ) :
    Except Interruption Run × σ :=
  search.sampleFrom predictor evidence .empty 0 0 search.limits.maxDraws.toNat state

/-- The first candidates of a run, without those that do not cover the evidence. -/
def select (search : Search) (run : Run) (evidence : Evidence) : List Candidate :=
  (run.pool.ranked.take search.limits.topK.toNat).filter fun candidate =>
    evidence.isCoveredBy candidate.calls.toList

/-- The candidates that answer evidence. -/
def answer (search : Search) (predictor : Predictor σ) (evidence : Evidence) (state : σ) :
    Except Interruption (List Candidate) × σ :=
  match search.sample predictor evidence state with
  | (.ok run, state) => (.ok (search.select run evidence), state)
  | (.error interruption, state) => (.error interruption, state)

end Search

end EvidenceSynthesis
