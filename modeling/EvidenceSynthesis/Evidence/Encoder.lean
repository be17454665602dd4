import EvidenceSynthesis.Evidence.Error
import EvidenceSynthesis.Evidence.Tensor
import EvidenceSynthesis.Evidence.Vocabulary

/-!
# Encoders of evidence

An encoder turns the tokens of one kind into numbers.  Of a list of tokens it takes as
many as it has rows; each row holds a one in the column of its token, or zeros alone if
the token has no number.  The presence of tokens is the sum of the rows.

The matrices are given as rows, as far as the mathematics goes, and as tensors as far as
there is memory for them.
-/

namespace EvidenceSynthesis

/-- The rows of a matrix. -/
abbrev Rows := List (List Nat)

namespace Rows

/-- The sums of the columns of rows with `width` places. -/
def columnSums (width : Nat) (rows : Rows) : List Nat :=
  rows.foldl (List.zipWith (· + ·)) (List.replicate width 0)

/-- There is one sum for each column. -/
theorem length_columnSums {width : Nat} {rows : Rows} (h : ∀ row ∈ rows, row.length = width) :
    (columnSums width rows).length = width := by
  unfold columnSums
  suffices ∀ sums : List Nat, sums.length = width →
      (rows.foldl (List.zipWith (· + ·)) sums).length = width from
    this _ (List.length_replicate ..)
  intro sums hsums
  induction rows generalizing sums with
  | nil => exact hsums
  | cons row rest ih =>
    have hrow : row.length = width := h row (by simp)
    refine ih (fun r hr => h r (List.mem_cons_of_mem _ hr)) _ ?_
    simp [List.length_zipWith, hsums, hrow]

end Rows

/-- The settings of an encoder, and its vocabulary once it is known. -/
structure Encoder where
  kind : Kind
  units : UInt64
  tile : UInt64
  /-- The number of rows. -/
  maxNum : UInt64
  vocabulary : Option Vocabulary
  deriving DecidableEq, Repr

namespace Encoder

open Json (Value Members ShapeError Reader required)

/-! ### Settings -/

/-- The settings of an encoder as they are stored. -/
structure Draft where
  name : Option String := none
  units : Option UInt64 := none
  tile : Option UInt64 := none
  maxNum : Option UInt64 := none
  chars : Option (List String) := none
  numbers : Option (List (String × UInt64)) := none
  size : Option UInt64 := none

namespace Draft

/-- Gives a member to a draft. -/
def give (name : String) (value : Value) (draft : Draft) : Except ShapeError Draft :=
  if name = "name" then (Reader.text value).map fun s => { draft with name := some s }
  else if name = EncoderField.units.name then
    (Reader.optional Reader.word value).map fun n => { draft with units := n }
  else if name = EncoderField.tile.name then
    (Reader.optional Reader.word value).map fun n => { draft with tile := n }
  else if name = EncoderField.maxNum.name then
    (Reader.optional Reader.word value).map fun n => { draft with maxNum := n }
  else if name = Vocabulary.charsKey then
    (Reader.optional Reader.texts value).map fun s => { draft with chars := s }
  else if name = Vocabulary.indexKey then
    (Reader.optional Reader.words value).map fun m => { draft with numbers := m }
  else if name = Vocabulary.sizeKey then
    (Reader.optional Reader.word value).map fun n => { draft with size := n }
  else .ok draft

/-- How the settings are read. -/
def form : Json.RecordForm Draft where
  name := "RawEncoderConfig"
  fields :=
    ["name", EncoderField.units.name, EncoderField.tile.name, EncoderField.maxNum.name,
     Vocabulary.charsKey, Vocabulary.indexKey, Vocabulary.sizeKey]
  blank := {}
  give := give

/-- The vocabulary of a draft, whose parts must agree with each other. -/
def vocabulary (draft : Draft) (name : String) : Except EvidenceError Vocabulary := do
  let some chars := draft.chars | throw (.invalidField name .chars)
  let vocabulary : Vocabulary := ⟨chars⟩
  if draft.size.map UInt64.toNat ≠ some vocabulary.size then
    throw (.invalidField name .vocabSize)
  if draft.numbers.any fun numbers => !vocabulary.hasNumbers numbers then
    throw (.invalidField name .vocab)
  return vocabulary

end Draft

/-- The encoder whose settings are stored in a value; its vocabulary is read only on
demand. -/
def ofValue (withVocabulary : Bool) (value : Value) : Except EvidenceError Encoder := do
  let draft ← EvidenceError.ofShape (Draft.form.read value)
  let name ← EvidenceError.ofShape (required "name" draft.name)
  let kind ← Kind.named name
  let some units := draft.units | throw (.invalidField name .units)
  let some tile := draft.tile | throw (.invalidField name .tile)
  let some maxNum := draft.maxNum | throw (.invalidField name .maxNum)
  let vocabulary ← if withVocabulary then (draft.vocabulary name).map some else pure none
  return ⟨kind, units, tile, maxNum, vocabulary⟩

/-- The encoders whose settings are listed in a value. -/
def listOfValue (withVocabulary : Bool) : Value → Except EvidenceError (List Encoder)
  | .array items => items.mapM (ofValue withVocabulary)
  | _ => .error .notAList

/-- The members under which an encoder is stored. -/
def members (encoder : Encoder) : Members :=
  let settings : Members :=
    [("name", .string encoder.kind.name),
     (EncoderField.units.name, .ofNat encoder.units.toNat),
     (EncoderField.tile.name, .ofNat encoder.tile.toNat),
     (EncoderField.maxNum.name, .ofNat encoder.maxNum.toNat)]
  match encoder.vocabulary with
  | some vocabulary => vocabulary.store settings
  | none => settings

/-- The stored form of an encoder. -/
def toValue (encoder : Encoder) : Value :=
  .object encoder.members

/-! ### Encoding -/

/-- The encoder with the vocabulary of data. -/
def learn (encoder : Encoder) (data : List (List String)) : Encoder :=
  { encoder with vocabulary := some (.ofData data) }

/-- The number of columns. -/
def width (encoder : Encoder) : Nat :=
  match encoder.vocabulary with
  | some vocabulary => vocabulary.size
  | none => 0

/-- The number of rows. -/
def height (encoder : Encoder) : Nat :=
  encoder.maxNum.toNat

/-- The column of a token. -/
def column? (encoder : Encoder) (token : String) : Option Nat :=
  encoder.vocabulary.bind fun vocabulary => vocabulary.index? token

/-- The row of a token. -/
def row (encoder : Encoder) (token : String) : List Nat :=
  let column := encoder.column? token
  (List.range encoder.width).map fun k => if column = some k then 1 else 0

/-- The rows of those tokens that fit. -/
def rows (encoder : Encoder) (tokens : List String) : Rows :=
  (tokens.take encoder.height).map encoder.row

/-- The matrix of tokens: their rows, and rows of zeros up to the height. -/
def encode (encoder : Encoder) (tokens : List String) : Rows :=
  let rows := encoder.rows tokens
  rows ++ List.replicate (encoder.height - rows.length) (List.replicate encoder.width 0)

/-- The matrices of lists of tokens. -/
def encodeAll (encoder : Encoder) (data : List (List String)) : List Rows :=
  data.map encoder.encode

/-- How often each column is hit by the tokens that fit. -/
def presence (encoder : Encoder) (tokens : List String) : List Nat :=
  Rows.columnSums encoder.width (encoder.rows tokens)

/-! ### Tensors -/

/-- The shape of the matrix of tokens. -/
def shape (encoder : Encoder) : Shape :=
  [encoder.height, encoder.width]

/-- Whether there is memory for the matrices of the encoder. -/
def fits (encoder : Encoder) : Bool :=
  encoder.shape.fits

/-- The entries of the matrix of tokens, row by row. -/
def entries (encoder : Encoder) (tokens : List String) : List Nat :=
  let rows := encoder.rows tokens
  rows.flatten ++ List.replicate ((encoder.height - rows.length) * encoder.width) 0

/-- The matrix of tokens, if there is memory for it. -/
def matrix? (encoder : Encoder) (tokens : List String) : Option Tensor :=
  if encoder.fits then some ⟨encoder.shape, encoder.entries tokens⟩ else none

/-- The matrices of lists of tokens in one, if there is memory for it. -/
def matrices? (encoder : Encoder) (data : List (List String)) : Option Tensor :=
  let shape : Shape := data.length :: encoder.shape
  if shape.fits then some ⟨shape, data.flatMap encoder.entries⟩ else none

/-- The presence of tokens, if there is memory for their matrix. -/
def presence? (encoder : Encoder) (tokens : List String) : Option (List Nat) :=
  if encoder.fits then some (encoder.presence tokens) else none

/-! ### Records -/

/-- The different tokens that a record lists for the kind of the encoder. -/
def dataPoint (encoder : Encoder) (record : Value) : List String :=
  match (record.member? encoder.kind.name).bind Value.items? with
  | some items => (items.filterMap Value.text?).eraseDups
  | none => []

/-- A token's row has one entry for each column. -/
@[simp] theorem length_row (encoder : Encoder) (token : String) :
    (encoder.row token).length = encoder.width := by
  simp [row]

/-- The rows of tokens have one entry for each column, known token or not. -/
theorem length_of_mem_rows {encoder : Encoder} {tokens : List String} {row : List Nat}
    (h : row ∈ encoder.rows tokens) : row.length = encoder.width := by
  obtain ⟨token, _, rfl⟩ := List.mem_map.1 h
  exact encoder.length_row token

/-- A presence vector has one entry for each column. -/
@[simp] theorem length_presence (encoder : Encoder) (tokens : List String) :
    (encoder.presence tokens).length = encoder.width :=
  Rows.length_columnSums fun _ h => length_of_mem_rows h

/-- No more rows are written than the encoder has room for. -/
theorem length_rows_le (encoder : Encoder) (tokens : List String) :
    (encoder.rows tokens).length ≤ encoder.height := by
  simp only [rows, List.length_map, List.length_take]
  omega

/-- A matrix always has the encoder's height: missing rows are padded. -/
@[simp] theorem length_encode (encoder : Encoder) (tokens : List String) :
    (encoder.encode tokens).length = encoder.height := by
  have h := encoder.length_rows_le tokens
  simp only [encode, List.length_append, List.length_replicate]
  omega

/-- The entries are those of the rows, one row after the other. -/
theorem flatten_encode (encoder : Encoder) (tokens : List String) :
    (encoder.encode tokens).flatten = encoder.entries tokens := by
  simp [encode, entries, List.flatten_replicate_replicate]

end Encoder

end EvidenceSynthesis
