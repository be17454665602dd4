import EvidenceSynthesis.Evidence.Basic
import EvidenceSynthesis.Program.Tree
import EvidenceSynthesis.Search.Error

/-!
# Predictors

A predictor is a session with a model: it answers evidence with a program, and every
draw may change its state.  What a draw may come to is all that a search knows of it.
-/

namespace EvidenceSynthesis

/-- What a draw comes to. -/
inductive Draw where
  /-- A program, and the calls that were made up on the way to it. -/
  | sampled (tree : Tree) (calls : List String)
  /-- A program that contradicts itself; the search goes on without it. -/
  | inconsistent (reason : String)
  /-- A failure that ends the search. -/
  | failed (error : PredictorError)
  /-- The draw was broken off without an answer. -/
  | crashed

/-- A session with a model whose states are of type `σ`. -/
structure Predictor (σ : Type) where
  /-- Draws a program for evidence. -/
  draw : Evidence → σ → Draw × σ

end EvidenceSynthesis
