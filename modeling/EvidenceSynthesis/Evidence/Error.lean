import EvidenceSynthesis.Evidence.Kind
import EvidenceSynthesis.Failure
import EvidenceSynthesis.Json.Shape

/-!
# Errors of evidence

What may be wrong with a request for evidence or with the settings of an encoder.
-/

namespace EvidenceSynthesis

/-- A setting of an encoder. -/
inductive EncoderField where
  | units
  | tile
  | maxNum
  | chars
  | vocab
  | vocabSize
  deriving Repr, DecidableEq

/-- The name under which a setting is stored. -/
def EncoderField.name : EncoderField → String
  | units => "units"
  | tile => "tile"
  | maxNum => "max_num"
  | chars => "chars"
  | vocab => "vocab"
  | vocabSize => "vocab_size"

/-- Why evidence, or the settings of its encoders, cannot be read. -/
inductive EvidenceError where
  /-- A request is no JSON object. -/
  | notAnObject
  /-- The settings of the encoders are no list. -/
  | notAList
  /-- A value has another shape than expected. -/
  | shape (error : Json.ShapeError)
  /-- No kind of evidence has this name. -/
  | unknownKind (name : String)
  /-- The kind is known by name only. -/
  | unsupportedKind (name : String)
  /-- A setting of the encoder for a kind is missing or wrong. -/
  | invalidField (kind : String) (field : EncoderField)
  /-- The text is no JSON document. -/
  | notJson

namespace EvidenceError

/-- The text of an error. -/
def message : EvidenceError → String
  | notAnObject => "Malformed evidence: request must be a JSON object"
  | notAList => "Malformed evidence: evidence config must be a list"
  | shape error => s!"Malformed evidence: {error.message}"
  | unknownKind name => s!"Invalid evidence name: {name}"
  | unsupportedKind name => s!"Evidence '{name}' is not supported"
  | invalidField kind field => s!"Evidence config for '{kind}' has invalid '{field.name}'"
  | notJson => "JSON error: malformed document"

/-- The error as a failure. -/
def toFailure (error : EvidenceError) : Failure :=
  .of error.message

/-- The error of a reader as an error of evidence. -/
def ofShape {α : Type} : Except Json.ShapeError α → Except EvidenceError α :=
  Except.mapError shape

end EvidenceError

/-- The kind with a name, or why there is none. -/
def Kind.named (name : String) : Except EvidenceError Kind :=
  match ofName? name with
  | some kind => .ok kind
  | none => .error (if name = reservedName then .unsupportedKind name else .unknownKind name)

/-- What is said of a stored name that names no kind. -/
def Kind.unknownMessage (name : String) : String :=
  let known := ", ".intercalate (Kind.all.map fun kind => s!"`{kind.name}`")
  s!"unknown variant `{name}`, expected one of {known}"

end EvidenceSynthesis
