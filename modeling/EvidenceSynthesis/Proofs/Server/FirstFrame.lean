import EvidenceSynthesis.Proofs.Evidence.Requests
import EvidenceSynthesis.Proofs.Server.Answers
import EvidenceSynthesis.Proofs.Server.Isolation

/-!
# The first frame is answered

Whatever a client sends, a server makes of it at most one text: the answer of the engine to the
text in the first frame (`Connection.answerText`).  Where there is no such text the empty response
is sent in its place (`Connection.handle_sends_answer`).

A client can tell the one from the other.  A request is always an object, and a response repeats
it, so that the text of a response and the text of the empty response differ in the first character
of what is repeated (`Response.text_ne_empty`).

What follows the first frame makes no difference (`Connection.serve_append`).
-/

namespace EvidenceSynthesis

open Json (Value)
open Text (Octets)
open Text.Utf8 (encode encode_injective)

/-! ### Texts of responses -/

namespace Response

/-- What stands in the text of a response in front of the value that it repeats. -/
def opening : List Char :=
  '\x7b' :: (Value.prettyStyle.lineBreak 1 ++
    (Json.writtenString "evidences" ++ ':' :: Value.prettyStyle.gap))

/-- A response opens with the evidence that it echoes. -/
theorem exists_toList_text (response : Response) :
    ∃ rest, response.text.toList =
      opening ++ response.evidences.written Value.prettyStyle 1 rest := by
  rw [text, Value.pretty, String.toList_ofList, toValue, Value.written, Value.writtenMembers,
    opening]
  · simp only [List.cons_append, List.append_assoc]
    exact ⟨_, rfl⟩
  · simp
  · simp

/-- The text of a response to an object is not the text of the empty response. -/
theorem text_ne_empty {response : Response} {members : Json.Members}
    (h : response.evidences = .object members) : response.text ≠ empty.text := by
  intro htext
  obtain ⟨rest, hrest⟩ := exists_toList_text response
  obtain ⟨others, hothers⟩ := exists_toList_text empty
  rw [htext, hothers] at hrest
  have hvalues := List.append_cancel_left hrest
  rw [h] at hvalues
  -- a bracket on one side, a brace on the other
  cases members with
  | nil => simp [empty, Value.written] at hvalues
  | cons member members => simp [empty, Value.written] at hvalues

end Response

/-- A response repeats the value of its request. -/
theorem Engine.evidences_of_generate {σ : Type} {engine : Engine σ} {request : Request} {state : σ}
    {response : Response} (h : (engine.generate request state).1 = .ok response) :
    response.evidences = request.payload := by
  unfold generate outcome at h
  cases hresult : (engine.search.answer engine.predictor request.evidence state).1 with
  | error interruption =>
    simp only [hresult] at h
    cases h
  | ok candidates =>
    simp only [hresult] at h
    cases h
    rfl

namespace Connection

variable {σ τ : Type}

/-- The text with which an engine answers the text in the first frame, and the state that is left.
There is none if the octets hold no frame with a text, or the engine has no answer to it. -/
def answerText (engine : Engine σ) (limit : Nat) (received : Octets) (state : σ) :
    Option String × σ :=
  match Frame.readText limit received with
  | .error _ => (none, state)
  | .ok (raw, _) =>
    let (result, state) := engine.generateText raw state
    (result.toOption, state)

/-! ### What is sent -/

/-- The text that answers what was received is that of the response to it. -/
theorem answerText_eq_respond (engine : Engine σ) (limit : Nat) (received : Octets) (state : σ) :
    answerText engine limit received state =
      ((respond engine.generate limit received state).1.toOption.map Response.text,
        (respond engine.generate limit received state).2) := by
  unfold answerText
  cases hread : Frame.readText limit received with
  | error error =>
    simp only [respond, requestOf, hread]
    rfl
  | ok message =>
    obtain ⟨raw, rest⟩ := message
    simp only [generateText_of_readText engine hread state]
    cases (respond engine.generate limit received state).1 <;> rfl

/-- A request is received exactly if the first frame holds a text that is accepted as one. -/
theorem requestOf_eq_ok_iff {limit : Nat} {received : Octets} {request : Request} :
    requestOf limit received = .ok request ↔
      ∃ raw rest, Frame.readText limit received = .ok (raw, rest) ∧
        Request.ofText raw = .ok request := by
  constructor
  · intro h
    cases hread : Frame.readText limit received with
    | error error =>
      rw [requestOf, hread] at h
      cases h
    | ok message =>
      obtain ⟨raw, rest⟩ := message
      rw [requestOf_of_readText hread, Engine.parse] at h
      cases hrequest : Request.ofText raw with
      | error error =>
        rw [hrequest] at h
        cases h
      | ok accepted =>
        rw [hrequest] at h
        cases h
        exact ⟨raw, rest, rfl, hrequest⟩
  · rintro ⟨raw, rest, hread, hrequest⟩
    rw [requestOf_of_readText hread, Engine.parse_eq_ok hrequest]

/-- A response repeats an object. -/
theorem evidences_of_respond {engine : Engine σ} {limit : Nat} {received : Octets} {state : σ}
    {response : Response}
    (h : (respond engine.generate limit received state).1 = .ok response) :
    ∃ members, response.evidences = .object members := by
  unfold respond at h
  cases hrequest : requestOf limit received with
  | error failure =>
    rw [hrequest] at h
    cases h
  | ok request =>
    rw [hrequest] at h
    obtain ⟨raw, rest, -, hraw⟩ := requestOf_eq_ok_iff.1 hrequest
    obtain ⟨members, hmembers⟩ := Request.exists_payload_eq_object hraw
    exact ⟨members, (Engine.evidences_of_generate h).trans hmembers⟩

/-- The text of the response that is sent in the end. -/
theorem text_responseOf_respond (engine : Engine σ) (limit : Nat) (received : Octets) (state : σ) :
    (responseOf (respond engine.generate limit received state).1).text =
      (answerText engine limit received state).1.getD Response.empty.text := by
  rw [answerText_eq_respond]
  cases (respond engine.generate limit received state).1 <;> rfl

/-- An engine never answers with the text of the empty response. -/
theorem answerText_ne_empty (engine : Engine σ) (limit : Nat) (received : Octets) (state : σ) :
    (answerText engine limit received state).1 ≠ some Response.empty.text := by
  rw [answerText_eq_respond]
  cases hresult : (respond engine.generate limit received state).1 with
  | error failure => exact nofun
  | ok response =>
    obtain ⟨members, hmembers⟩ := evidences_of_respond hresult
    intro h
    exact Response.text_ne_empty hmembers (Option.some.inj h)

/-- What is sent is never the frame of the empty response if it was to be the frame of another. -/
theorem write_empty_eq_sent_iff {response : Response} :
    Frame.write (encode Response.empty.text) = .ok (sent response) ↔
      response.text = Response.empty.text := by
  have hempty : Response.empty.size ≤ Frame.greatestLength := by decide +kernel
  constructor
  · intro h
    rcases Nat.lt_or_ge Frame.greatestLength response.size with hlong | hfits
    · -- a frame has at least the octets of its length
      have hlength := Frame.length_of_write h
      rw [(sent_eq_nil hlong).1, List.length_nil, Frame.headerSize] at hlength
      omega
    · exact encode_injective (Frame.write_injective (write_text_eq_sent hfits) h)
  · intro h
    have hfits : response.size ≤ Frame.greatestLength := by
      rwa [← response.length_encode_text, h, Response.length_encode_text]
    rw [← h]
    exact write_text_eq_sent hfits

/-! ### What is not read -/

/-- What follows the first frame makes no difference to the request. -/
theorem requestOf_append {body frame : Octets} (hframe : Frame.write body = .ok frame)
    (limit : Nat) (rest others : Octets) :
    requestOf limit (frame ++ rest) = requestOf limit (frame ++ others) := by
  unfold requestOf Frame.readText
  rw [Frame.read_write hframe, Frame.read_write hframe]
  by_cases hlimit : limit < body.length
  · rw [if_pos hlimit, if_pos hlimit]
  · rw [if_neg hlimit, if_neg hlimit]
    cases hbody : Text.Utf8.decode body with
    | error fault => simp only [hbody]
    | ok raw => simp only [hbody]

/-- What follows the first frame makes no difference, neither to the answer nor to the state that
is left. -/
theorem serve_append (service : Service τ) {body frame : Octets}
    (hframe : Frame.write body = .ok frame) (limit : Nat) (rest others : Octets) (state : τ) :
    serve service limit (frame ++ rest) state = serve service limit (frame ++ others) state := by
  rw [serve, serve, respond, respond, requestOf_append hframe limit rest others]

/-! ### The answer to a connection -/

/-- What a server sends, whatever it has received and whatever its predictor does.

It sends the frame of the text with which the engine answers the text in the first frame, or of the
text of the empty response if there is no such text; nothing is sent in place of a text that is too
long for a frame.  The state is left as the engine leaves it.

The engine never answers with the text of the empty response, so that this text is sent exactly if
the request has failed.  What follows the first frame makes no difference.

All this is the same behind a lock, poisoned or not. -/
theorem handle_sends_answer (engine : Engine σ) (limit : Nat) (received : Octets) (state : σ) :
    let answer := answerText engine limit received state
    let handled := handle engine limit received state
    let body := answer.1.getD Response.empty.text
    ((encode body).length ≤ Frame.greatestLength →
      Frame.write (encode body) = .ok handled.1) ∧
    (Frame.greatestLength < (encode body).length → handled.1 = []) ∧
    handled.2 = answer.2 ∧
    answer.1 ≠ some Response.empty.text ∧
    (Frame.write (encode Response.empty.text) = .ok handled.1 ↔ answer.1 = none) ∧
    (∀ message frame rest others, Frame.write message = .ok frame → received = frame ++ rest →
      handle engine limit (frame ++ others) state = handled) ∧
    ∀ poisoned,
      let served := serve engine.generateGuarded limit received ⟨state, poisoned⟩
      served.1 = handled.1 ∧ served.2.state = handled.2 := by
  intro answer handled body
  have hbody : (responseOf (respond engine.generate limit received state).1).text = body :=
    text_responseOf_respond engine limit received state
  have hnever : answer.1 ≠ some Response.empty.text :=
    answerText_ne_empty engine limit received state
  refine ⟨fun hfits => ?_, fun hlong => ?_, ?_, hnever, ?_, ?_, ?_⟩
  · rw [← hbody] at hfits ⊢
    exact write_text_eq_sent (by rwa [← Response.length_encode_text])
  · rw [← hbody, Response.length_encode_text] at hlong
    exact (sent_eq_nil hlong).1
  · exact (congrArg Prod.snd (answerText_eq_respond engine limit received state)).symm
  · show Frame.write _ =
      .ok (sent (responseOf (respond engine.generate limit received state).1)) ↔ _
    rw [write_empty_eq_sent_iff, hbody]
    show answer.1.getD _ = _ ↔ _
    cases hnone : answer.1 with
    | none => simp
    | some text =>
      rw [hnone] at hnever
      simpa using hnever
  · rintro message frame rest others hframe rfl
    exact serve_append engine.generate hframe limit others rest state
  · intro poisoned
    exact serve_guarded_eq_handle engine ⟨state, poisoned⟩

end Connection

end EvidenceSynthesis
