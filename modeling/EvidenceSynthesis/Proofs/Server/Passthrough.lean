import EvidenceSynthesis.Proofs.Evidence.Requests
import EvidenceSynthesis.Proofs.Server.Answers
import EvidenceSynthesis.Proofs.Server.Isolation

/-!
# What is passed through is not looked at

A request is answered out of the tokens that it asks for.  The value it was read from is repeated
in the response and has no other effect: two requests that list the same tokens, in whatever order
and however often, and whatever else they hold, are searched for with the same draws, leave the
session in the same state, and find the same candidates (`Engine.generate_passthrough`).
-/

namespace EvidenceSynthesis

open Json (Value)

/-! ### Requests of lists -/

namespace Json.Value

theorem hasDistinctNames_ofTexts (tokens : List String) : (ofTexts tokens).HasDistinctNames := by
  refine itemsHaveDistinctNames_iff.2 fun item hitem => ?_
  obtain ⟨token, -, rfl⟩ := List.mem_map.1 hitem
  trivial

theorem everyNumber_ofTexts {p : Value → Prop} (tokens : List String) :
    (ofTexts tokens).EveryNumber p := by
  refine everyNumberOfItems_iff.2 fun item hitem => ?_
  obtain ⟨token, -, rfl⟩ := List.mem_map.1 hitem
  trivial

theorem nesting_ofTexts_le (tokens : List String) : (ofTexts tokens).nesting ≤ 1 := by
  refine Nat.succ_le_succ (nestingOfItems_le_iff.2 fun item hitem => ?_)
  obtain ⟨token, -, rfl⟩ := List.mem_map.1 hitem
  exact Nat.le_refl 0

/-- The object that lists texts under names. -/
def ofLists (lists : List (String × List String)) : Value :=
  .object (lists.map fun (name, tokens) => (name, .ofTexts tokens))

end Json.Value

/-- An object of lists under different names is read from its text as a request. -/
theorem Request.exists_ofText_ofLists (lists : List (String × List String))
    (hnames : (lists.map (·.1)).Nodup) :
    ∃ evidence, ofText (Value.ofLists lists).compact = .ok ⟨evidence, .ofLists lists⟩ := by
  have hlists : ∀ member ∈ lists.map fun (name, tokens) => (name, Value.ofTexts tokens),
      ∃ tokens, member.2 = .ofTexts tokens := by
    intro member hmember
    obtain ⟨⟨name, tokens⟩, -, rfl⟩ := List.mem_map.1 hmember
    exact ⟨tokens, rfl⟩
  have hdistinct : (Value.ofLists lists).HasDistinctNames := by
    constructor
    · rwa [Json.Members.names, List.map_map]
    · refine Value.membersHaveDistinctNames_iff.2 fun member hmember => ?_
      obtain ⟨tokens, htokens⟩ := hlists member hmember
      rw [htokens]
      exact Value.hasDistinctNames_ofTexts tokens
  have hnumbers : (Value.ofLists lists).EveryNumber Value.ReadsBack := by
    refine Value.everyNumberOfMembers_iff.2 fun member hmember => ?_
    obtain ⟨tokens, htokens⟩ := hlists member hmember
    rw [htokens]
    exact Value.everyNumber_ofTexts tokens
  have hnesting : (Value.ofLists lists).nesting ≤ 2 := by
    refine Nat.succ_le_succ (Value.nestingOfMembers_le_iff.2 fun member hmember => ?_)
    obtain ⟨tokens, htokens⟩ := hlists member hmember
    rw [htokens]
    exact Value.nesting_ofTexts_le tokens
  have hread := ofText_compact hdistinct hnumbers (Nat.le_trans hnesting (by decide))
  obtain ⟨request, hrequest⟩ := (exists_ofValue_eq_ok_iff hdistinct).2
    ⟨_, rfl, fun kind value hvalue => hlists _ (Json.Members.mem_of_get? hvalue)⟩
  refine ⟨request.evidence, hread.trans ?_⟩
  rw [hrequest, ← payload_of_ofValue hrequest]

namespace Engine

variable {σ : Type} (engine : Engine σ)

/-- The draws that are made to answer a request, in order. -/
def drawsMade (request : Request) (state : σ) : List Draw :=
  (engine.recording.generate request ([], state)).2.1

/-- A record of the draws changes neither the answer nor the state that is left. -/
theorem generate_recording (request : Request) (state : σ) :
    engine.recording.generate request ([], state) =
      ((engine.generate request state).1,
        (engine.drawsMade request state, (engine.generate request state).2)) := by
  simp only [drawsMade, generate, recording, Search.answer_recording]

/-- What the search for a request finds, or why there is no answer. -/
def findings (request : Request) (state : σ) : Except Failure (List Candidate) :=
  (engine.generate request state).1.map Response.candidates

/-- A response repeats the value of its request, and lists what was found. -/
theorem generate_eq_findings (request : Request) (state : σ) :
    (engine.generate request state).1 =
      (engine.findings request state).map fun candidates => ⟨request.payload, candidates⟩ := by
  simp only [findings, generate]
  cases (engine.search.answer engine.predictor request.evidence state).1 <;> rfl

/-! ### Requests with the same evidence -/

section

variable {request other : Request}

/-- What the search for a request finds is told by its evidence. -/
theorem findings_congr (h : request.evidence = other.evidence) (state : σ) :
    engine.findings request state = engine.findings other state := by
  simp only [findings, generate, h]
  cases (engine.search.answer engine.predictor other.evidence state).1 <;> rfl

/-- What the search for a request leaves is told by its evidence. -/
theorem generate_state_congr (h : request.evidence = other.evidence) (state : σ) :
    (engine.generate request state).2 = (engine.generate other state).2 := by
  simp only [generate, h]

/-- The draws depend on the evidence of a request alone. -/
theorem drawsMade_congr (h : request.evidence = other.evidence) (state : σ) :
    engine.drawsMade request state = engine.drawsMade other state := by
  rw [drawsMade, drawsMade, engine.recording.generate_state_congr h]

/-- This holds of the lock, too. -/
theorem generateGuarded_session_congr (h : request.evidence = other.evidence)
    (session : GuardedSession σ) :
    (engine.generateGuarded request session).2 = (engine.generateGuarded other session).2 := by
  rw [generateGuarded_eq, generateGuarded_eq, h]

end

/-! ### Requests that list the same tokens -/

/-- Two texts that are accepted as requests and list the same tokens of each kind are answered by
the same search, whatever the state of the session: it makes the same draws, leaves the same
session, and fails in the same way or finds the same candidates in the same order.  The two
responses differ at most in the values that they repeat, each of which is that of its own text.

All this is the same behind a lock, poisoned or not, and a record of the draws changes nothing. -/
theorem generate_passthrough {raw otherRaw : String} {request other : Request}
    (hrequest : Request.ofText raw = .ok request) (hother : Request.ofText otherRaw = .ok other)
    (hlisted : ∀ kind token, token ∈ Request.listed request.payload kind ↔
      token ∈ Request.listed other.payload kind) (state : σ) :
    Value.ofText? raw = some request.payload ∧ Value.ofText? otherRaw = some other.payload ∧
    (∀ any : Request, engine.recording.generate any ([], state) =
      ((engine.generate any state).1,
        (engine.drawsMade any state, (engine.generate any state).2))) ∧
    engine.drawsMade request state = engine.drawsMade other state ∧
    (engine.generate request state).2 = (engine.generate other state).2 ∧
    (∃ found : Except Failure (List Candidate),
      (engine.generate request state).1 =
          found.map (fun candidates => ⟨request.payload, candidates⟩) ∧
        (engine.generate other state).1 =
          found.map (fun candidates => ⟨other.payload, candidates⟩)) ∧
    ∀ poisoned,
      (engine.generateGuarded request ⟨state, poisoned⟩).1 = (engine.generate request state).1 ∧
      (engine.generateGuarded other ⟨state, poisoned⟩).1 = (engine.generate other state).1 ∧
      (engine.generateGuarded request ⟨state, poisoned⟩).2 =
        (engine.generateGuarded other ⟨state, poisoned⟩).2 := by
  have hevidence := Request.evidence_eq_of_listed hrequest hother hlisted
  refine ⟨Request.ofText?_of_ofText hrequest, Request.ofText?_of_ofText hother,
    fun any => engine.generate_recording any state, engine.drawsMade_congr hevidence state,
    engine.generate_state_congr hevidence state,
    ⟨engine.findings request state, engine.generate_eq_findings request state, ?_⟩, ?_⟩
  · rw [engine.findings_congr hevidence state]
    exact engine.generate_eq_findings other state
  · intro poisoned
    exact ⟨(engine.generateGuarded_eq_generate request ⟨state, poisoned⟩).1,
      (engine.generateGuarded_eq_generate other ⟨state, poisoned⟩).1,
      engine.generateGuarded_session_congr hevidence ⟨state, poisoned⟩⟩

/-- A request that names two calls, one of them twice, and one that names them in another order,
lists no types, and holds nothing else. -/
theorem generate_passthrough_reordered :
    let payload := Value.ofLists [("apicalls", ["b", "a", "b"]), ("extra", ["c"])]
    let otherPayload := Value.ofLists [("types", []), ("apicalls", ["a", "b"])]
    ∃ request other,
      Request.ofText payload.compact = .ok request ∧ request.payload = payload ∧
      Request.ofText otherPayload.compact = .ok other ∧ other.payload = otherPayload ∧
      (∀ kind token, token ∈ Request.listed payload kind ↔
        token ∈ Request.listed otherPayload kind) ∧
      unproductive.drawsMade request () = unproductive.drawsMade other () ∧
      ∃ found : Except Failure (List Candidate),
        (unproductive.generate request ()).1 =
            found.map (fun candidates => ⟨payload, candidates⟩) ∧
          (unproductive.generate other ()).1 =
            found.map (fun candidates => ⟨otherPayload, candidates⟩) := by
  intro payload otherPayload
  have hlisted : ∀ kind token, token ∈ Request.listed payload kind ↔
      token ∈ Request.listed otherPayload kind := by
    intro kind token
    cases kind with
    | apiCalls =>
      show token ∈ ["b", "a", "b"] ↔ token ∈ ["a", "b"]
      simp only [List.mem_cons, List.not_mem_nil, or_false]
      tauto
    | types => exact Iff.rfl
    | context => exact Iff.rfl
  obtain ⟨evidence, hrequest⟩ := Request.exists_ofText_ofLists
    [("apicalls", ["b", "a", "b"]), ("extra", ["c"])] (by decide)
  obtain ⟨others, hother⟩ := Request.exists_ofText_ofLists
    [("types", []), ("apicalls", ["a", "b"])] (by decide)
  obtain ⟨-, -, -, hdraws, -, hfound, -⟩ :=
    unproductive.generate_passthrough hrequest hother hlisted ()
  exact ⟨_, _, hrequest, rfl, hother, rfl, hlisted, hdraws, hfound⟩

end Engine

end EvidenceSynthesis
