import EvidenceSynthesis.Server.Engine

/-!
# Sessions behind a lock

The requests of a server share one session, and each of them holds its lock for as long
as it searches.  A search that is broken off leaves the lock poisoned.  Whoever asks for
a poisoned lock is warned, but is handed the session with the warning; a search passes
over the warning and mends the lock.
-/

namespace EvidenceSynthesis

/-- A session behind a lock. -/
structure GuardedSession (σ : Type) where
  state : σ
  /-- Whether a holder of the lock was broken off since it was last mended. -/
  poisoned : Bool

namespace GuardedSession

variable {σ α : Type}

/-- A session whose lock nobody has held. -/
def fresh (state : σ) : GuardedSession σ := ⟨state, false⟩

/-- Asks for the lock: the session, or the session with a warning. -/
def lock (session : GuardedSession σ) : Except σ σ :=
  if session.poisoned then .error session.state else .ok session.state

/-- The session, with a warning or without. -/
def recover : Except σ σ → σ
  | .ok state => state
  | .error state => state

/-- Whether something was broken off. -/
def isBrokenOff : Except Interruption α → Bool
  | .error .crashed => true
  | _ => false

/-- Does something with the session while its lock is held.  The lock is mended before,
and it is poisoned afterwards exactly if the holder was broken off. -/
def hold (session : GuardedSession σ) (action : σ → Except Interruption α × σ) :
    Except Interruption α × GuardedSession σ :=
  let (result, state) := action (recover session.lock)
  (result, ⟨state, isBrokenOff result⟩)

end GuardedSession

/-- Answers a request with the session behind the lock. -/
def Engine.generateGuarded {σ : Type} (engine : Engine σ) (request : Request)
    (session : GuardedSession σ) : Except Failure Response × GuardedSession σ :=
  let (result, session) :=
    session.hold (engine.search.answer engine.predictor request.evidence)
  (outcome request result, session)

end EvidenceSynthesis
