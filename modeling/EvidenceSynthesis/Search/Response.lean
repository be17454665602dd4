import EvidenceSynthesis.Evidence.Request
import EvidenceSynthesis.Json.Writer
import EvidenceSynthesis.Program.Candidate

/-!
# Responses

The answer to a request: the request itself and the candidates that were found.
-/

namespace EvidenceSynthesis

/-- The answer to a request. -/
structure Response where
  evidences : Json.Value
  candidates : List Candidate

namespace Response

/-- The answer that is sent where a request cannot be answered. -/
def empty : Response := ⟨.array [], []⟩

/-- The candidates as the answer to a request. -/
def ofCandidates (request : Request) (candidates : List Candidate) : Response :=
  ⟨request.payload, candidates⟩

/-- The response as a JSON value. -/
def toValue (response : Response) : Json.Value :=
  .object
    [("evidences", response.evidences),
     ("asts", .array (response.candidates.map Candidate.toValue))]

/-- The text of a response. -/
def text (response : Response) : String :=
  response.toValue.pretty

/-- The number of octets of the text of a response. -/
def size (response : Response) : Nat :=
  response.toValue.prettySize

end Response

end EvidenceSynthesis
