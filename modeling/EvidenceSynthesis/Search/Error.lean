import EvidenceSynthesis.Evidence.Error
import EvidenceSynthesis.Files.Error
import EvidenceSynthesis.Failure

/-!
# Errors of searches

What may be wrong with a model, with a session that draws from it, and with the limits
of a search.  Each error has a text of its own and a chain of causes that repeats the
errors it was made of.
-/

namespace EvidenceSynthesis

/-- What is wrong with a stored model. -/
inductive ArtifactError where
  /-- The settings have another shape than expected. -/
  | shape (error : Json.ShapeError)
  /-- Two encoders are set up for one kind. -/
  | repeatedKind (kind : Kind)
  /-- The decoder has no vocabulary. -/
  | noDecoderChars
  /-- The size of the decoder's vocabulary is not the number of its tokens. -/
  | wrongDecoderSize
  /-- There is no program to draw. -/
  | noPrograms
  /-- A file of the model is of no use. -/
  | unusable (path reason : String)
  /-- What a session found wrong by itself. -/
  | reported (reason : String)

/-- What is wrong, in words. -/
def ArtifactError.message : ArtifactError → String
  | shape error => s!"invalid model config: {error.message}"
  | repeatedKind kind => s!"evidence '{kind.name}' is configured twice"
  | noDecoderChars => "decoder config has no 'chars'"
  | wrongDecoderSize => "decoder 'vocab_size' does not match 'chars'"
  | noPrograms => "corpus has no programs"
  | unusable path reason => s!"{path}: {reason}"
  | reported reason => reason

/-- Why a predictor cannot be set up or cannot draw. -/
inductive PredictorError where
  | artifact (error : ArtifactError)
  | inference (reason : String)
  | evidence (error : EvidenceError)
  | io (error : FileError)
  | notJson

namespace PredictorError

/-- The text of an error. -/
def message : PredictorError → String
  | artifact error => s!"Model artifact error: {error.message}"
  | inference reason => s!"Inference failed: {reason}"
  | evidence error => s!"Evidence config error: {error.message}"
  | io error => s!"IO error: {error.message}"
  | notJson => "JSON error: malformed document"

/-- The texts of the errors that an error was made of. -/
def sources : PredictorError → List String
  | evidence error => [error.message]
  | io error => [error.message]
  | _ => []

/-- The error as a failure. -/
def toFailure (error : PredictorError) : Failure :=
  .ofCauses error.message error.sources

end PredictorError

/-- What keeps the work with a predictor from its end. -/
inductive Interruption where
  /-- It failed with an error. -/
  | failed (error : PredictorError)
  /-- It was broken off without an answer. -/
  | crashed

/-- A bound of a search. -/
inductive LimitName where
  | maxDraws
  | gapThreshold
  | topK
  deriving Repr, DecidableEq

/-- The name under which a bound is set. -/
def LimitName.text : LimitName → String
  | maxDraws => "max_draws"
  | gapThreshold => "gap_threshold"
  | topK => "top_k"

/-- Why a search cannot be set up or carried out. -/
inductive SearchError where
  /-- A bound is zero. -/
  | zeroLimit (name : LimitName)
  /-- The text of the bounds cannot be read. -/
  | notAssignments
  | io (error : FileError)
  | predictor (error : PredictorError)

namespace SearchError

/-- The text of an error. -/
def message : SearchError → String
  | zeroLimit name => s!"Invalid search config: {name.text} must be > 0"
  | notAssignments => "Failed to parse search config: malformed assignments"
  | io error => s!"IO error: {error.message}"
  | predictor error => s!"Predictor error: {error.message}"

/-- The texts of the errors that an error was made of. -/
def sources : SearchError → List String
  | io error => [error.message]
  | predictor error => error.message :: error.sources
  | _ => []

/-- The error as a failure. -/
def toFailure (error : SearchError) : Failure :=
  .ofCauses error.message error.sources

end SearchError

end EvidenceSynthesis
