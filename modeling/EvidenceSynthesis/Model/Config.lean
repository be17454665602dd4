import EvidenceSynthesis.Evidence.Encoder
import EvidenceSynthesis.Json.Reader
import EvidenceSynthesis.Search.Error

/-!
# Settings of a model

The settings with which a model was trained, as they are stored beside it: numbers of
the training, at most one encoder for each kind of evidence, and the decoder.  The
vocabularies are stored with them or not at all.
-/

namespace EvidenceSynthesis

open Decimal (Binary64)
open Json (Value Members ShapeError Reader required)

/-- The settings of a decoder. -/
structure Decoder where
  units : UInt64
  /-- Deeper programs are not drawn. -/
  maxAstDepth : UInt64
  vocabulary : Option Vocabulary
  deriving DecidableEq, Repr

namespace Decoder

/-- The settings of a decoder as they are stored. -/
structure Draft where
  units : Option UInt64 := none
  maxAstDepth : Option UInt64 := none
  chars : Option (List String) := none
  size : Option UInt64 := none

namespace Draft

/-- Gives a member to a draft. -/
def give (name : String) (value : Value) (draft : Draft) : Except ShapeError Draft :=
  if name = "units" then (Reader.word value).map fun n => { draft with units := some n }
  else if name = "max_ast_depth" then
    (Reader.word value).map fun n => { draft with maxAstDepth := some n }
  else if name = Vocabulary.charsKey then
    (Reader.optional Reader.texts value).map fun s => { draft with chars := s }
  else if name = Vocabulary.sizeKey then
    (Reader.optional Reader.word value).map fun n => { draft with size := n }
  else .ok draft

/-- How the settings are read. -/
def form : Json.RecordForm Draft where
  name := "RawDecoderConfig"
  fields := ["units", "max_ast_depth", Vocabulary.charsKey, Vocabulary.sizeKey]
  blank := {}
  give := give

/-- The vocabulary of a draft, whose parts must agree with each other. -/
def vocabulary (draft : Draft) : Except ArtifactError Vocabulary := do
  let some chars := draft.chars | throw .noDecoderChars
  let vocabulary : Vocabulary := ⟨chars⟩
  if draft.size.map UInt64.toNat ≠ some vocabulary.size then throw .wrongDecoderSize
  return vocabulary

end Draft

/-- What is stored of a decoder: its settings without a vocabulary, and the draft that
may hold one. -/
def read (value : Value) : Except ShapeError (Decoder × Draft) := do
  let draft ← Draft.form.read value
  let units ← required "units" draft.units
  let maxAstDepth ← required "max_ast_depth" draft.maxAstDepth
  return (⟨units, maxAstDepth, none⟩, draft)

/-- The stored form of a decoder. -/
def toValue (decoder : Decoder) : Value :=
  let settings : Members :=
    [("units", .ofNat decoder.units.toNat),
     ("max_ast_depth", .ofNat decoder.maxAstDepth.toNat)]
  match decoder.vocabulary with
  | some vocabulary => .object (vocabulary.store settings)
  | none => .object settings

end Decoder

/-- The settings of a model. -/
structure ModelConfig where
  latentSize : UInt64
  batchSize : UInt64
  numEpochs : UInt64
  learningRate : Binary64
  printStep : UInt64
  alpha : Binary64
  beta : Binary64
  encoders : List Encoder
  decoder : Decoder
  deriving DecidableEq, Repr

namespace ModelConfig

/-- The settings of a model as they are stored. -/
structure Draft where
  latentSize : Option UInt64 := none
  batchSize : Option UInt64 := none
  numEpochs : Option UInt64 := none
  learningRate : Option Binary64 := none
  printStep : Option UInt64 := none
  alpha : Option Binary64 := none
  beta : Option Binary64 := none
  evidence : Option Value := none
  decoder : Option (Decoder × Decoder.Draft) := none

namespace Draft

/-- Gives a member to a draft. -/
def give (name : String) (value : Value) (draft : Draft) : Except ShapeError Draft :=
  if name = "latent_size" then
    (Reader.word value).map fun n => { draft with latentSize := some n }
  else if name = "batch_size" then
    (Reader.word value).map fun n => { draft with batchSize := some n }
  else if name = "num_epochs" then
    (Reader.word value).map fun n => { draft with numEpochs := some n }
  else if name = "learning_rate" then
    (Reader.number value).map fun x => { draft with learningRate := some x }
  else if name = "print_step" then
    (Reader.word value).map fun n => { draft with printStep := some n }
  else if name = "alpha" then (Reader.number value).map fun x => { draft with alpha := some x }
  else if name = "beta" then (Reader.number value).map fun x => { draft with beta := some x }
  else if name = "evidence" then .ok { draft with evidence := some value }
  else if name = "decoder" then
    (Decoder.read value).map fun d => { draft with decoder := some d }
  else .ok draft

/-- How the settings are read. -/
def form : Json.RecordForm Draft where
  name := "RawModelConfig"
  fields :=
    ["latent_size", "batch_size", "num_epochs", "learning_rate", "print_step", "alpha", "beta",
     "evidence", "decoder"]
  blank := {}
  give := give

end Draft

/-- Settings whose encoders and vocabularies are not read yet. -/
structure Outline where
  latentSize : UInt64
  batchSize : UInt64
  numEpochs : UInt64
  learningRate : Binary64
  printStep : UInt64
  alpha : Binary64
  beta : Binary64
  evidence : Value
  decoder : Decoder × Decoder.Draft

/-- The outline of a value. -/
def Outline.read (value : Value) : Except ShapeError Outline := do
  let draft ← Draft.form.read value
  let latentSize ← required "latent_size" draft.latentSize
  let batchSize ← required "batch_size" draft.batchSize
  let numEpochs ← required "num_epochs" draft.numEpochs
  let learningRate ← required "learning_rate" draft.learningRate
  let printStep ← required "print_step" draft.printStep
  let alpha ← required "alpha" draft.alpha
  let beta ← required "beta" draft.beta
  let evidence ← required "evidence" draft.evidence
  let decoder ← required "decoder" draft.decoder
  return ⟨latentSize, batchSize, numEpochs, learningRate, printStep, alpha, beta, evidence, decoder⟩

/-- The first kind of a list that occurs in front of its place already. -/
def repeatedKind? (seen : List Kind) : List Kind → Option Kind
  | [] => none
  | kind :: rest => if kind ∈ seen then some kind else repeatedKind? (kind :: seen) rest

/-- The settings that are stored in a value; the vocabularies are read only on
demand. -/
def ofValue (withVocabularies : Bool) (value : Value) : Except PredictorError ModelConfig := do
  let outline ← (Outline.read value).mapError fun error => .artifact (.shape error)
  let encoders ← (Encoder.listOfValue withVocabularies outline.evidence).mapError .evidence
  if let some kind := repeatedKind? [] (encoders.map (·.kind)) then
    throw (.artifact (.repeatedKind kind))
  let vocabulary ←
    if withVocabularies then (outline.decoder.2.vocabulary.mapError .artifact).map some
    else pure none
  return {
    latentSize := outline.latentSize
    batchSize := outline.batchSize
    numEpochs := outline.numEpochs
    learningRate := outline.learningRate
    printStep := outline.printStep
    alpha := outline.alpha
    beta := outline.beta
    encoders := encoders
    decoder := { outline.decoder.1 with vocabulary := vocabulary } }

/-- Whether a value is an object with a member for the tokens of a vocabulary. -/
def mentionsChars (value : Value) : Bool :=
  (value.member? Vocabulary.charsKey).isSome

/-- Whether stored settings mention a vocabulary for the decoder and for each of one or
more encoders. -/
def savesVocabularies (value : Value) : Bool :=
  (match (value.member? "evidence").bind Value.items? with
    | some entries => !entries.isEmpty && entries.all mentionsChars
    | none => false) &&
  (value.member? "decoder").any mentionsChars

/-- The settings in a file, with the vocabularies if they are saved. -/
def ofFile (file : Except FileError Text.Octets) : Except PredictorError ModelConfig :=
  match file with
  | .error error => .error (.io error)
  | .ok octets =>
    match Value.ofOctets? octets with
    | some value => ofValue (savesVocabularies value) value
    | none => .error .notJson

/-- The stored form of the settings. -/
def toValue (config : ModelConfig) : Value :=
  .object
    [("latent_size", .ofNat config.latentSize.toNat),
     ("batch_size", .ofNat config.batchSize.toNat),
     ("num_epochs", .ofNat config.numEpochs.toNat),
     ("learning_rate", .float config.learningRate),
     ("print_step", .ofNat config.printStep.toNat),
     ("alpha", .float config.alpha),
     ("beta", .float config.beta),
     ("evidence", .array (config.encoders.map Encoder.toValue)),
     ("decoder", config.decoder.toValue)]

/-- The encoder for a kind. -/
def encoder? (config : ModelConfig) (kind : Kind) : Option Encoder :=
  config.encoders.find? fun encoder => encoder.kind == kind

end ModelConfig

end EvidenceSynthesis
