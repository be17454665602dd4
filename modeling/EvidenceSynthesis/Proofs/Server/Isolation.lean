import EvidenceSynthesis.Proofs.Search.Transcript
import EvidenceSynthesis.Server.Connection

/-!
# Connections do not disturb each other

A server answers its connections one after another, with one session that all of them share.
This file says how far a connection can be felt by the others.

What a connection does is told by the request that it holds, if it holds one.  Without a
request it is answered with the empty response and leaves the session alone
(`serve_of_rejected`).  A request is searched for, and the search ends in one of two ways:
with the first draw that fails (`serve_of_first_interruption`), or with a run that consists of
its own draws (`serve_of_no_interruption`).  Both say what is left of the session, and neither
depends on whether the lock was poisoned before.

Over a sequence of connections, those without a request can be left out
(`serveAll_eq_of_accepted`), so that two sequences with the same requests in the same order are
answered alike.
-/

namespace EvidenceSynthesis

open Text (Octets)

/-! ### What a search leaves of a session -/

namespace Search

variable {σ : Type} (search : Search) (predictor : Predictor σ) (evidence : Evidence) (state : σ)

/-- Of the draws that a search would make, a first one fails or none does. -/
theorem exists_first_interruption_or_none :
    (∃ k interruption, k < search.drawCount predictor evidence state ∧
        (∀ i < k, (predictor.outcome evidence state i).interruption? = none) ∧
        (predictor.outcome evidence state k).interruption? = some interruption) ∨
      ∀ i < search.drawCount predictor evidence state,
        (predictor.outcome evidence state i).interruption? = none := by
  by_cases hfails : ∃ k < search.drawCount predictor evidence state,
      (predictor.outcome evidence state k).interruption? ≠ none
  · have hfirst := Nat.find_spec hfails
    obtain ⟨interruption, hinterruption⟩ := Option.ne_none_iff_exists'.1 hfirst.2
    refine Or.inl ⟨Nat.find hfails, interruption, hfirst.1, ?_, hinterruption⟩
    intro i hi
    by_contra hne
    exact Nat.find_min hfails hi ⟨Nat.lt_trans hi hfirst.1, hne⟩
  · refine Or.inr fun i hi => ?_
    by_contra hne
    exact hfails ⟨i, hi, hne⟩

/-- An answer fails with the first draw that interrupts its search. -/
theorem answer_of_first_interruption {k : Nat} {interruption : Interruption}
    (hk : k < search.drawCount predictor evidence state)
    (hbefore : ∀ i < k, (predictor.outcome evidence state i).interruption? = none)
    (h : (predictor.outcome evidence state k).interruption? = some interruption) :
    search.answer predictor evidence state =
      (.error interruption, predictor.stateAfter evidence state (k + 1)) := by
  rw [answer, search.sample_of_first_interruption predictor evidence state hk hbefore h]

theorem answer_of_no_interruption
    (hnone : ∀ i < search.drawCount predictor evidence state,
      (predictor.outcome evidence state i).interruption? = none) :
    search.answer predictor evidence state =
      (.ok (search.select (search.runOf predictor evidence state
          (search.drawCount predictor evidence state)) evidence),
        predictor.stateAfter evidence state (search.drawCount predictor evidence state)) := by
  rw [answer, search.sample_of_no_interruption predictor evidence state hnone]

/-- A record of the draws changes neither the answer nor the state that is left. -/
theorem answer_recording :
    search.answer predictor.recording evidence ([], state) =
      ((search.answer predictor evidence state).1,
        (search.drawsMade predictor evidence state,
          (search.answer predictor evidence state).2)) := by
  rcases search.exists_first_interruption_or_none predictor evidence state with
    ⟨k, interruption, hk, hbefore, hfails⟩ | hnone
  · rw [search.drawsMade_of_first_interruption predictor evidence state hk hbefore hfails,
      search.answer_of_first_interruption predictor evidence state hk hbefore hfails,
      search.answer_of_first_interruption predictor.recording evidence ([], state) (k := k),
      Predictor.recording_stateAfter]
    · rwa [drawCount_recording]
    · simpa only [Predictor.recording_outcome] using hbefore
    · rwa [Predictor.recording_outcome]
  · rw [search.drawsMade_of_no_interruption predictor evidence state hnone,
      search.answer_of_no_interruption predictor evidence state hnone,
      search.answer_of_no_interruption predictor.recording evidence ([], state),
      drawCount_recording, Predictor.recording_stateAfter, runOf, runOf,
      Predictor.recording_transcript]
    simpa only [drawCount_recording, Predictor.recording_outcome] using hnone

end Search

/-! ### The lock -/

namespace GuardedSession

variable {σ α : Type}

/-- The session is handed out whether or not the lock is poisoned. -/
@[simp] theorem recover_lock (session : GuardedSession σ) :
    recover session.lock = session.state := by
  unfold lock
  split <;> rfl

/-- What is done with a session does not depend on whether its lock is poisoned. -/
theorem hold_eq (session : GuardedSession σ) (action : σ → Except Interruption α × σ) :
    session.hold action =
      ((action session.state).1,
        ⟨(action session.state).2, isBrokenOff (action session.state).1⟩) := by
  rw [hold, recover_lock]

end GuardedSession

namespace Engine

variable {σ : Type}

/-- The engine that keeps a record of the draws that are made. -/
def recording (engine : Engine σ) : Engine (List Draw × σ) :=
  ⟨engine.predictor.recording, engine.search⟩

/-- A guarded session answers like the session inside, unless poisoned. -/
theorem generateGuarded_eq (engine : Engine σ) (request : Request) (session : GuardedSession σ) :
    engine.generateGuarded request session =
      let (result, state) :=
        engine.search.answer engine.predictor request.evidence session.state
      (outcome request result, ⟨state, GuardedSession.isBrokenOff result⟩) := by
  rw [generateGuarded, GuardedSession.hold_eq]

/-- Behind the lock a request is answered as it is without one. -/
theorem generateGuarded_eq_generate (engine : Engine σ) (request : Request)
    (session : GuardedSession σ) :
    (engine.generateGuarded request session).1 = (engine.generate request session.state).1 ∧
      (engine.generateGuarded request session).2.state =
        (engine.generate request session.state).2 := by
  rw [generateGuarded_eq]
  exact ⟨rfl, rfl⟩

end Engine

/-! ### One connection -/

namespace Connection

variable {σ τ : Type} {limit : Nat} {received : Octets}

/-- Whether what a client has sent holds a request. -/
def isAccepted (limit : Nat) (received : Octets) : Bool :=
  (requestOf limit received).toBool

theorem isAccepted_iff : isAccepted limit received = true ↔
    ∃ request, requestOf limit received = .ok request := by
  unfold isAccepted
  cases requestOf limit received <;> simp [Except.toBool]

/-- What keeps octets from being a request: they hold no frame with a text, or the text is none
of a request. -/
theorem isAccepted_eq_false_iff : isAccepted limit received = false ↔
    (∃ error, Frame.readText limit received = .error error) ∨
      ∃ raw rest error, Frame.readText limit received = .ok (raw, rest) ∧
        Request.ofText raw = .error error := by
  unfold isAccepted requestOf
  cases hframe : Frame.readText limit received with
  | error error => simp [Except.toBool]
  | ok message =>
    obtain ⟨raw, rest⟩ := message
    cases hrequest : Request.ofText raw with
    | error error => simp [Engine.parse, hrequest, Except.mapError, Except.toBool]
    | ok request => simp [Engine.parse, hrequest, Except.mapError, Except.toBool]

/-- Without a request nothing is done, and the empty response is sent. -/
theorem serve_of_rejected (service : Service τ) (h : isAccepted limit received = false)
    (state : τ) : serve service limit received state = (sent .empty, state) := by
  unfold isAccepted at h
  unfold serve respond
  cases hrequest : requestOf limit received with
  | error failure => rfl
  | ok request => simp [hrequest, Except.toBool] at h

/-- An accepted connection is sent what the service answers. -/
theorem serve_of_accepted (service : Service τ) {request : Request}
    (h : requestOf limit received = .ok request) (state : τ) :
    serve service limit received state =
      (sent (responseOf (service request state).1), (service request state).2) := by
  rw [serve, respond, h]

/-- The draws that are made to answer a connection, in order. -/
def drawsMade (engine : Engine σ) (limit : Nat) (received : Octets)
    (session : GuardedSession σ) : List Draw :=
  (serve engine.recording.generateGuarded limit received
    ⟨([], session.state), session.poisoned⟩).2.state.1

section

variable (engine : Engine σ) (session : GuardedSession σ)

/-- A record of the draws changes neither what is sent nor the session that is left. -/
theorem serve_recording :
    serve engine.recording.generateGuarded limit received
        ⟨([], session.state), session.poisoned⟩ =
      let (octets, left) := serve engine.generateGuarded limit received session
      (octets, ⟨(drawsMade engine limit received session, left.state), left.poisoned⟩) := by
  cases hrequest : requestOf limit received with
  | error failure =>
    have hrejected : isAccepted limit received = false := by
      simp [isAccepted, hrequest, Except.toBool]
    rw [drawsMade, serve_of_rejected _ hrejected, serve_of_rejected _ hrejected]
  | ok request =>
    rw [drawsMade, serve_of_accepted _ hrequest, serve_of_accepted _ hrequest,
      Engine.generateGuarded_eq, Engine.generateGuarded_eq]
    simp only [Engine.recording, Search.answer_recording]

theorem drawsMade_of_rejected (h : isAccepted limit received = false) :
    drawsMade engine limit received session = [] := by
  rw [drawsMade, serve_of_rejected _ h]

/-- For an accepted connection its request is drawn for. -/
theorem drawsMade_of_accepted {request : Request}
    (h : requestOf limit received = .ok request) :
    drawsMade engine limit received session =
      engine.search.drawsMade engine.predictor request.evidence session.state := by
  rw [drawsMade, serve_of_accepted _ h, Engine.generateGuarded_eq]
  simp only [Engine.recording, Search.answer_recording]

/-- A search that fails makes the draws up to the first that fails, and the empty response is
sent.  The lock is left poisoned if that draw was broken off. -/
theorem serve_of_first_interruption {request : Request}
    (h : requestOf limit received = .ok request) {k : Nat} {interruption : Interruption}
    (hk : k < engine.search.drawCount engine.predictor request.evidence session.state)
    (hbefore : ∀ i < k,
      (engine.predictor.outcome request.evidence session.state i).interruption? = none)
    (hfails : (engine.predictor.outcome request.evidence session.state k).interruption? =
      some interruption) :
    serve engine.generateGuarded limit received session =
        (sent .empty,
          ⟨engine.predictor.stateAfter request.evidence session.state (k + 1),
            GuardedSession.isBrokenOff (.error interruption : Except _ (List Candidate))⟩) ∧
      drawsMade engine limit received session =
        engine.predictor.transcript request.evidence session.state (k + 1) := by
  rw [drawsMade_of_accepted engine session h, serve_of_accepted _ h, Engine.generateGuarded_eq,
    engine.search.answer_of_first_interruption _ _ _ hk hbefore hfails]
  exact ⟨rfl, engine.search.drawsMade_of_first_interruption _ _ _ hk hbefore hfails⟩

/-- A search in which no draw fails is answered out of its own draws. -/
theorem serve_of_no_interruption {request : Request}
    (h : requestOf limit received = .ok request)
    (hnone : ∀ i < engine.search.drawCount engine.predictor request.evidence session.state,
      (engine.predictor.outcome request.evidence session.state i).interruption? = none) :
    let n := engine.search.drawCount engine.predictor request.evidence session.state
    serve engine.generateGuarded limit received session =
        (sent (.ofCandidates request (engine.search.select
            (engine.search.runOf engine.predictor request.evidence session.state n)
            request.evidence)),
          .fresh (engine.predictor.stateAfter request.evidence session.state n)) ∧
      drawsMade engine limit received session =
        engine.predictor.transcript request.evidence session.state n := by
  intro n
  rw [drawsMade_of_accepted engine session h, serve_of_accepted _ h, Engine.generateGuarded_eq,
    engine.search.answer_of_no_interruption _ _ _ hnone]
  exact ⟨rfl, engine.search.drawsMade_of_no_interruption _ _ _ hnone⟩

/-- A poisoned lock keeps no request from being answered, and is mended by it. -/
theorem serve_fresh {request : Request} (h : requestOf limit received = .ok request) :
    serve engine.generateGuarded limit received session =
      serve engine.generateGuarded limit received (.fresh session.state) := by
  rw [serve_of_accepted _ h, serve_of_accepted _ h, Engine.generateGuarded_eq,
    Engine.generateGuarded_eq]
  rfl

/-- Behind the lock a connection is answered as it is without one. -/
theorem serve_guarded_eq_handle :
    (serve engine.generateGuarded limit received session).1 =
        (handle engine limit received session.state).1 ∧
      (serve engine.generateGuarded limit received session).2.state =
        (handle engine limit received session.state).2 := by
  unfold handle serve respond
  cases requestOf limit received with
  | error failure => exact ⟨rfl, rfl⟩
  | ok request =>
    obtain ⟨hresult, hstate⟩ := engine.generateGuarded_eq_generate request session
    exact ⟨congrArg (fun result => sent (responseOf result)) hresult, hstate⟩

end

/-! ### Sequences of connections -/

/-- The answers to those connections that hold a request. -/
def acceptedAnswers (service : Service τ) (limit : Nat) (connections : List Octets) (state : τ) :
    List Octets :=
  ((connections.zip (serveAll service limit connections state).1).filter
    fun connection => isAccepted limit connection.1).map (·.2)

/-- Connections without a request can be left out: the others are answered in the same way, and
the state that is left is the same. -/
theorem serveAll_accepted (limit : Nat) (service : Service τ) (connections : List Octets)
    (state : τ) :
    acceptedAnswers service limit connections state =
        (serveAll service limit (connections.filter (isAccepted limit)) state).1 ∧
      (serveAll service limit connections state).2 =
        (serveAll service limit (connections.filter (isAccepted limit)) state).2 := by
  induction connections generalizing state with
  | nil => exact ⟨rfl, rfl⟩
  | cons received rest ih =>
    cases hreceived : isAccepted limit received with
    | false =>
      obtain ⟨hanswers, hstate⟩ := ih state
      simp only [acceptedAnswers, serveAll, serve_of_rejected service hreceived, List.zip_cons_cons,
        List.filter_cons, hreceived, Bool.false_eq_true, if_false]
      exact ⟨hanswers, hstate⟩
    | true =>
      obtain ⟨hanswers, hstate⟩ := ih (serve service limit received state).2
      simp only [acceptedAnswers, serveAll, List.zip_cons_cons, List.filter_cons, hreceived,
        if_true, List.map_cons]
      exact ⟨congrArg _ hanswers, hstate⟩

/-- Sequences that hold the same requests in the same order are answered alike. -/
theorem serveAll_eq_of_accepted (service : Service τ) {connections others : List Octets}
    (h : connections.filter (isAccepted limit) = others.filter (isAccepted limit)) (state : τ) :
    acceptedAnswers service limit connections state =
        acceptedAnswers service limit others state ∧
      (serveAll service limit connections state).2 =
        (serveAll service limit others state).2 := by
  obtain ⟨hanswers, hstate⟩ := serveAll_accepted limit service connections state
  obtain ⟨hothers, hleft⟩ := serveAll_accepted limit service others state
  rw [hanswers, hstate, hothers, hleft, h]
  exact ⟨rfl, rfl⟩

/-- Connections are answered alike whether or not the lock is poisoned at first. -/
theorem serveAll_fresh (limit : Nat) (engine : Engine σ) (connections : List Octets)
    (session : GuardedSession σ) :
    (serveAll engine.generateGuarded limit connections session).1 =
        (serveAll engine.generateGuarded limit connections (.fresh session.state)).1 ∧
      (serveAll engine.generateGuarded limit connections session).2.state =
        (serveAll engine.generateGuarded limit connections (.fresh session.state)).2.state := by
  induction connections with
  | nil => exact ⟨rfl, rfl⟩
  | cons received rest ih =>
    cases hreceived : isAccepted limit received with
    | false =>
      simp only [serveAll, serve_of_rejected _ hreceived]
      exact ⟨congrArg _ ih.1, ih.2⟩
    | true =>
      obtain ⟨request, hrequest⟩ := isAccepted_iff.1 hreceived
      simp only [serveAll, serve_fresh engine session hrequest]
      exact ⟨trivial, trivial⟩

/-- How far connections can be felt by each other, for any engine.

What holds no request is answered with the empty response after no draw at all, and leaves the
session as it was, the lock included.  Two sequences with the same requests in the same order,
whatever else comes before, between and after them, are therefore answered alike where there is
a request, and leave the same session.

A request whose search fails costs the draws up to the first that fails.  What comes after it is
answered as by an engine that starts with an unpoisoned lock in the state which that draw has
left.  A request whose search does not fail is answered out of the draws that it makes itself,
starting from an empty pool, and leaves an unpoisoned lock.

Behind the lock the answers are those of `handle`, and a record of the draws does not change
them. -/
theorem serveAll_isolated (engine : Engine σ) (limit : Nat) :
    let service := engine.generateGuarded
    (∀ received, isAccepted limit received = false ↔
      (∃ error, Frame.readText limit received = .error error) ∨
        ∃ raw rest error, Frame.readText limit received = .ok (raw, rest) ∧
          Request.ofText raw = .error error) ∧
    (∀ received session, isAccepted limit received = false →
      serve service limit received session = (sent .empty, session) ∧
        drawsMade engine limit received session = []) ∧
    (∀ connections others session,
      connections.filter (isAccepted limit) = others.filter (isAccepted limit) →
      acceptedAnswers service limit connections session =
          acceptedAnswers service limit others session ∧
        (serveAll service limit connections session).2 =
          (serveAll service limit others session).2) ∧
    (∀ received request session, requestOf limit received = .ok request →
      let n := engine.search.drawCount engine.predictor request.evidence session.state
      let outcome := engine.predictor.outcome request.evidence session.state
      let draws := engine.predictor.transcript request.evidence session.state
      let after := engine.predictor.stateAfter request.evidence session.state
      (∀ k interruption, k < n → (∀ i < k, (outcome i).interruption? = none) →
        (outcome k).interruption? = some interruption →
        drawsMade engine limit received session = draws (k + 1) ∧
        ∀ rest,
          (serveAll service limit (received :: rest) session).1 =
              sent .empty :: (serveAll service limit rest (.fresh (after (k + 1)))).1 ∧
            (serveAll service limit (received :: rest) session).2.state =
              (serveAll service limit rest (.fresh (after (k + 1)))).2.state) ∧
      ((∀ i < n, (outcome i).interruption? = none) →
        drawsMade engine limit received session = draws n ∧
        serve service limit received session =
          (sent (.ofCandidates request (engine.search.select
              (engine.search.runOf engine.predictor request.evidence session.state n)
              request.evidence)),
            .fresh (after n)))) ∧
    ∀ received session,
      ((serve service limit received session).1 =
          (handle engine limit received session.state).1 ∧
        (serve service limit received session).2.state =
          (handle engine limit received session.state).2) ∧
      serve engine.recording.generateGuarded limit received
          ⟨([], session.state), session.poisoned⟩ =
        let (octets, left) := serve service limit received session
        (octets, ⟨(drawsMade engine limit received session, left.state), left.poisoned⟩) := by
  intro service
  refine ⟨fun received => isAccepted_eq_false_iff, ?_, ?_, ?_, ?_⟩
  · intro received session hrejected
    exact ⟨serve_of_rejected service hrejected session,
      drawsMade_of_rejected engine session hrejected⟩
  · intro connections others session h
    exact serveAll_eq_of_accepted service h session
  · intro received request session hrequest n outcome draws after
    constructor
    · intro k interruption hk hbefore hfails
      obtain ⟨hserved, hdraws⟩ :=
        serve_of_first_interruption engine session hrequest hk hbefore hfails
      refine ⟨hdraws, fun rest => ?_⟩
      -- the draw may have left the lock poisoned, which the connections after it do not notice
      have hrest := serveAll_fresh limit engine rest
        ⟨after (k + 1),
          GuardedSession.isBrokenOff (.error interruption : Except _ (List Candidate))⟩
      rw [serveAll, hserved]
      exact ⟨congrArg _ hrest.1, hrest.2⟩
    · intro hnone
      exact (serve_of_no_interruption engine session hrequest hnone).symm
  · intro received session
    exact ⟨serve_guarded_eq_handle engine session, serve_recording engine session⟩

end Connection

end EvidenceSynthesis
