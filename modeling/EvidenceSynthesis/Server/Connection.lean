import EvidenceSynthesis.Server.Frame
import EvidenceSynthesis.Server.Session

/-!
# Connections

A connection carries one request and one response, each in a frame.  Whatever goes
wrong with a request, it is answered: with the empty response.  What a client sends
after its first frame is not read.

How requests are answered is left open first: a `Service` answers them in a state, and
an engine is one, with its session as the state or with the lock around it.
-/

namespace EvidenceSynthesis

open Text (Octets)

/-- A way to answer requests, each of which may change a state. -/
abbrev Service (τ : Type) := Request → τ → Except Failure Response × τ

namespace Connection

variable {σ τ : Type}

/-! ### The side of the server -/

/-- The request that a client has sent, or why there is none. -/
def requestOf (limit : Nat) (received : Octets) : Except Failure Request :=
  match Frame.readText limit received with
  | .error error => .error (error.toFailure.within "malformed request frame")
  | .ok (raw, _) => Engine.parse raw

/-- The response to what a client has sent, or why there is none. -/
def respond (service : Service τ) (limit : Nat) (received : Octets) (state : τ) :
    Except Failure Response × τ :=
  match requestOf limit received with
  | .error failure => (.error failure, state)
  | .ok request => service request state

/-- The response that is sent. -/
def responseOf : Except Failure Response → Response
  | .ok response => response
  | .error _ => .empty

/-- The octets that carry a response; none if its text is too long for a frame.  Such a
text is not even laid out. -/
def sent (response : Response) : Octets :=
  if Frame.greatestLength < response.size then []
  else
    match Frame.write (Text.Utf8.encode response.text) with
    | .ok octets => octets
    | .error _ => []

/-- The octets that answer what a client has sent. -/
def serve (service : Service τ) (limit : Nat) (received : Octets) (state : τ) : Octets × τ :=
  let (result, state) := respond service limit received state
  (sent (responseOf result), state)

/-- The answers to connections that come one after another. -/
def serveAll (service : Service τ) (limit : Nat) :
    List Octets → τ → List Octets × τ
  | [], state => ([], state)
  | received :: rest, state =>
    let (answer, state) := serve service limit received state
    let (answers, state) := serveAll service limit rest state
    (answer :: answers, state)

/-- The octets with which an engine answers what a client has sent. -/
def handle (engine : Engine σ) (limit : Nat) (received : Octets) (state : σ) : Octets × σ :=
  serve engine.generate limit received state

/-! ### The side of the client -/

/-- The octets that carry a query, which must be a JSON text. -/
def request (query : String) : Except Failure Octets :=
  if (Json.Value.ofText? query).isSome then
    (Frame.write (Text.Utf8.encode query)).mapError fun error =>
      error.toFailure.within "failed to send evidence"
  else
    .error (.of "evidence is not valid JSON")

/-- The text in what a server has sent. -/
def response (received : Octets) : Except Failure String :=
  match Frame.readText Frame.standardLimit received with
  | .ok (body, _) => .ok body
  | .error error => .error (error.toFailure.within "failed to read response")

/-- A query to a server and its answer. -/
def exchange (engine : Engine σ) (limit : Nat) (query : String) (state : σ) :
    Except Failure String × σ :=
  match request query with
  | .error failure => (.error failure, state)
  | .ok octets =>
    let (answer, state) := handle engine limit octets state
    (response answer, state)

end Connection

end EvidenceSynthesis
