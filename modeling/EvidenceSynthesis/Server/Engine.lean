import EvidenceSynthesis.Search.Response
import EvidenceSynthesis.Search.Sampling

/-!
# Engines

An engine answers requests with the searches that it runs on one session.  A search
that fails, or that is broken off, leaves the session to the next request.
-/

namespace EvidenceSynthesis

/-- A session with a model and the search that is run on it. -/
structure Engine (σ : Type) where
  predictor : Predictor σ
  search : Search

namespace Engine

variable {σ : Type}

/-- What keeps a run from its end, as a failure. -/
def failureOf : Interruption → Failure
  | .failed error => (SearchError.predictor error).toFailure.within "AST search failed"
  | .crashed => .of "search worker panicked"

/-- The answer to a request by what its search came to. -/
def outcome (request : Request) :
    Except Interruption (List Candidate) → Except Failure Response
  | .ok candidates => .ok (.ofCandidates request candidates)
  | .error interruption => .error (failureOf interruption)

/-- Answers a request. -/
def generate (engine : Engine σ) (request : Request) (state : σ) :
    Except Failure Response × σ :=
  let (result, state) := engine.search.answer engine.predictor request.evidence state
  (outcome request result, state)

/-- The request of a text, or why there is none. -/
def parse (raw : String) : Except Failure Request :=
  (Request.ofText raw).mapError fun error => error.toFailure.within "invalid evidence"

/-- Answers the text of a request with the text of a response. -/
def generateText (engine : Engine σ) (raw : String) (state : σ) :
    Except Failure String × σ :=
  match parse raw with
  | .error failure => (.error failure, state)
  | .ok request =>
    let (result, state) := engine.generate request state
    (result.map Response.text, state)

end Engine

end EvidenceSynthesis
