import EvidenceSynthesis.Json.Value
import EvidenceSynthesis.Decimal.Shortest
import EvidenceSynthesis.Text.Quoted

/-!
# Reading values of a known shape

A reader takes a JSON value to a datum of its type, or says how the value differs
from the shape that was expected.

A record is read from an object, whose members are taken in the order of the
document, or from an array that holds its fields in the order of declaration.  Of
several faults the first in the document is reported; that a field is missing is
noticed only after the last member.
-/

namespace EvidenceSynthesis.Json

open EvidenceSynthesis.Decimal (Binary64)

/-- What a reader expects. -/
inductive Expected where
  | word
  | number
  | text
  | sequence
  | map
  | record (name : String)
  deriving Repr, DecidableEq

/-- How an expectation is named in a message. -/
def Expected.message : Expected → String
  | word => "usize"
  | number => "f64"
  | text => "a string"
  | sequence => "a sequence"
  | map => "a map"
  | record name => s!"struct {name}"

/-- How a value differs from an expected shape. -/
inductive ShapeError where
  /-- The value is of another kind. -/
  | mismatch (found : Value) (expected : Expected)
  /-- A negative integer stands where a word is expected. -/
  | negative (n : Int)
  /-- A required field is absent. -/
  | missing (field : String)
  /-- An array ends before the last of the `size` fields of a record. -/
  | tooFew (count : Nat) (record : String) (size : Nat)
  /-- An array goes on after the last field of a record. -/
  | tooMany (count : Nat)

namespace ShapeError

/-- How a value is named in a message. -/
def describe : Value → String
  | .null => "null"
  | .bool b => s!"boolean `{b}`"
  | .integer n => s!"integer `{n}`"
  | .float x => s!"floating point `{x.text}`"
  | .string s => s!"string {Text.quoted s}"
  | .array _ => "sequence"
  | .object _ => "map"

/-- The text of an error. -/
def message : ShapeError → String
  | mismatch found expected => s!"invalid type: {describe found}, expected {expected.message}"
  | negative n => s!"invalid value: integer `{n}`, expected {Expected.word.message}"
  | missing field => s!"missing field `{field}`"
  | tooFew count record size =>
    s!"invalid length {count}, expected {(Expected.record record).message} with {size} elements"
  | tooMany count => s!"invalid length {count}, expected fewer elements in array"

end ShapeError

/-- A way to read values as data of a type. -/
abbrev Reader (α : Type) := Value → Except ShapeError α

namespace Reader

variable {α : Type}

/-- Any value at all. -/
def any : Reader Value := .ok

/-- A word: an integer that is not negative. -/
def word : Reader UInt64
  | .integer n => if n < 0 then .error (.negative n) else .ok (UInt64.ofNat n.toNat)
  | value => .error (.mismatch value .word)

/-- A binary64 number; integers are rounded to one. -/
def number : Reader Binary64
  | .float x => .ok x
  | .integer n =>
    match Binary64.ofInt? n with
    | some x => .ok x
    | none => .error (.mismatch (.integer n) .number)
  | value => .error (.mismatch value .number)

/-- A text. -/
def text : Reader String
  | .string s => .ok s
  | value => .error (.mismatch value .text)

/-- A list whose items are read alike. -/
def list (item : Reader α) : Reader (List α)
  | .array items => items.mapM item
  | value => .error (.mismatch value .sequence)

/-- A list of texts. -/
def texts : Reader (List String) :=
  list text

/-- A map from names to words. -/
def words : Reader (List (String × UInt64))
  | .object members => members.mapM fun (name, value) => (word value).map (name, ·)
  | value => .error (.mismatch value .map)

/-- A datum, or nothing where the value is null. -/
def optional (reader : Reader α) : Reader (Option α)
  | .null => .ok none
  | value => (reader value).map some

end Reader

/-- A record of named fields that is read one field at a time into a draft. -/
structure RecordForm (δ : Type) where
  /-- How the record is named in messages. -/
  name : String
  /-- The fields in the order of declaration. -/
  fields : List String
  /-- The draft to which no field was given. -/
  blank : δ
  /-- Gives the value of a field to a draft; what is no field has no effect. -/
  give : String → Value → δ → Except ShapeError δ

namespace RecordForm

variable {δ : Type}

/-- Gives fields one after another. -/
def giveAll (form : RecordForm δ) (entries : List (String × Value)) : Except ShapeError δ :=
  entries.foldlM (fun draft entry => form.give entry.1 entry.2 draft) form.blank

/-- The draft of a value. -/
def read (form : RecordForm δ) : Reader δ
  | .object members => form.giveAll members
  | .array items => do
    let draft ← form.giveAll (form.fields.zip items)
    if items.length < form.fields.length then
      throw (.tooFew items.length form.name form.fields.length)
    if form.fields.length < items.length then
      throw (.tooMany items.length)
    return draft
  | value => .error (.mismatch value (.record form.name))

end RecordForm

/-- The value of a required field of a draft. -/
def required {α : Type} (field : String) : Option α → Except ShapeError α
  | some a => .ok a
  | none => .error (.missing field)

end EvidenceSynthesis.Json
