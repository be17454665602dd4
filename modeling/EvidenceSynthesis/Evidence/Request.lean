import EvidenceSynthesis.Evidence.Basic
import EvidenceSynthesis.Evidence.Error
import EvidenceSynthesis.Json.Reader

/-!
# Requests

A request is a JSON object whose members `apicalls`, `types` and `context` list the
tokens that a program should show.  An absent category is empty.  All other members
are passed through to the answer, so a request keeps the whole value it was read from.
-/

namespace EvidenceSynthesis

/-- The evidence that is asked for, and the value that asks for it. -/
structure Request where
  evidence : Evidence
  payload : Json.Value

namespace Request

open Json (Value Members)

/-- Takes one member of a request into account. -/
def give (name : String) (value : Value) (evidence : Evidence) :
    Except Json.ShapeError Evidence :=
  match Kind.ofName? name with
  | some kind =>
    (Json.Reader.texts value).map fun tokens => evidence.modify kind fun _ => .ofList tokens
  | none => .ok evidence

/-- How a request is read from the members of an object. -/
def form : Json.RecordForm Evidence where
  name := "Evidence"
  fields := Kind.all.map Kind.name
  blank := .empty
  give := give

/-- The request of a value. -/
def ofValue (payload : Value) : Except EvidenceError Request :=
  match payload with
  | .object members =>
    (EvidenceError.ofShape (form.giveAll members)).map fun evidence => ⟨evidence, payload⟩
  | _ => .error .notAnObject

/-- The request of a JSON text. -/
def ofText (raw : String) : Except EvidenceError Request :=
  match Value.ofText? raw with
  | some payload => ofValue payload
  | none => .error .notJson

end Request

end EvidenceSynthesis
