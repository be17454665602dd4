import EvidenceSynthesis.Proofs.Json.Growth
import EvidenceSynthesis.Proofs.Search.Echo
import EvidenceSynthesis.Proofs.Server.Codec
import EvidenceSynthesis.Server.Connection

/-!
# What the two ends of a connection make of each other

A request arrives in a frame, and the response leaves in one
(`Connection.write_text_eq_sent`).  The size of the response alone decides whether it can leave:
a frame cannot state a length above `Frame.greatestLength`, and nothing is written for a longer
text (`Connection.handle_answers`).  That there are such responses to requests of an admissible
size is due to the layout, which repeats the indentation of a deep level for each of its items.

A client that queries a server receives the text that the engine answers with, or the text of the
empty response where the engine has no answer, unless that text is longer than the client is
willing to read (`Connection.exchange_eq`).
-/

namespace EvidenceSynthesis

open Json (Value)
open Text (Octets)
open Text.Utf8 (decode encode decode_encode)

namespace Response

/-- The size of a response is the number of octets of its text. -/
theorem length_encode_text (response : Response) :
    (encode response.text).length = response.size :=
  Value.length_encode_pretty response.toValue

/-- A response without candidates takes 33 octets more than the value of its request, which is laid
out one level deeper. -/
theorem size_ofCandidates_nil (request : Request) :
    (ofCandidates request []).size =
      request.payload.writtenSize Value.prettyStyle 1 + 33 := by
  have hnames : Text.Utf8.size (Json.writtenString "evidences") = 11 ∧
      Text.Utf8.size (Json.writtenString "asts") = 6 := by decide
  simp only [size, Value.prettySize, toValue, ofCandidates, List.map_nil,
    Value.writtenSize_object_cons, Value.writtenMembersSize, Value.writtenSize, hnames,
    Value.breakSize_prettyStyle, Value.length_gap_prettyStyle, Nat.zero_add]
  omega

/-- How long a response without candidates can be to a text that nests at most so deep. -/
theorem size_ofCandidates_nil_le {raw : String} {request : Request} {depth k : Nat}
    (h : Value.ofTextWithin? depth raw = some request.payload) (hk : 104 ≤ k)
    (hdepth : 2 * depth + 4 ≤ k) : (ofCandidates request []).size ≤ k * raw.length + 33 := by
  have hpayload : request.payload.writtenSize Value.prettyStyle 1 ≤ k * raw.length :=
    Value.writtenSize_le_of_ofTextWithin? hk (by omega) h
  rw [size_ofCandidates_nil]
  omega

end Response

/-! ### Requests that hold arrays of equal items -/

/-- The length of the text of such a request. -/
theorem Request.length_encode_spreading (counts : List Nat) :
    (encode (Request.spreading counts).payload.compact).length =
      Value.spreadSize .compact 1 counts + 6 := by
  have hname : Text.Utf8.size (Json.writtenString "a") = 3 := rfl
  rw [Value.compact, Value.length_encode_written]
  simp only [Request.spreading, Value.writtenSize_object_cons, Value.writtenMembersSize, hname,
    Value.writtenSize_spread, Json.Style.breakSize, Json.Style.gap, List.length_nil,
    Nat.zero_add]
  omega

/-- The length of the response to such a request, if it has no candidates. -/
theorem Response.size_spreading (counts : List Nat) :
    (ofCandidates (.spreading counts) []).size =
      Value.spreadSize Value.prettyStyle 2 counts + 48 := by
  have hname : Text.Utf8.size (Json.writtenString "a") = 3 := rfl
  rw [size_ofCandidates_nil]
  simp only [Request.spreading, Value.writtenSize_object_cons, Value.writtenMembersSize, hname,
    Value.writtenSize_spread, Value.breakSize_prettyStyle, Value.length_gap_prettyStyle,
    Nat.reduceAdd]
  omega

/-! ### Searches that find nothing -/

namespace Engine

variable {σ : Type}

theorem parse_eq_ok {raw : String} {request : Request} (h : Request.ofText raw = .ok request) :
    parse raw = .ok request := by
  rw [parse, h]
  rfl

/-- A request whose search finds nothing is answered without candidates. -/
theorem generate_of_no_candidates {engine : Engine σ} {request : Request} {state after : σ}
    (h : engine.search.answer engine.predictor request.evidence state = (.ok [], after)) :
    engine.generate request state = (.ok (.ofCandidates request []), after) := by
  simp only [generate, h, outcome]

/-- The engine whose predictor contradicts itself with each draw. -/
def unproductive : Engine Unit :=
  ⟨⟨fun _ state => (.inconsistent "", state)⟩, ⟨.standard, by decide⟩⟩

theorem answer_unproductive (evidence : Evidence) :
    unproductive.search.answer unproductive.predictor evidence () = (.ok [], ()) := rfl

/-- An engine that draws no program answers with an empty list. -/
theorem generateText_unproductive {raw : String} {request : Request}
    (h : Request.ofText raw = .ok request) :
    unproductive.generateText raw () = (.ok (Response.ofCandidates request []).text, ()) := by
  rw [generateText, parse_eq_ok h]
  simp only [generate_of_no_candidates (answer_unproductive request.evidence)]
  rfl

end Engine

namespace Connection

variable {σ : Type}

/-! ### The side of the server -/

/-- A response leaves in a frame if it fits one. -/
theorem write_text_eq_sent {response : Response} (h : response.size ≤ Frame.greatestLength) :
    Frame.write (encode response.text) = .ok (sent response) := by
  have hlength : (encode response.text).length ≤ Frame.greatestLength :=
    Nat.le_trans (Nat.le_of_eq response.length_encode_text) h
  have hwrite := Frame.write_of_le hlength
  rw [sent, if_neg (Nat.not_lt.2 h), hwrite]

/-- Nothing leaves otherwise, for there is no such frame. -/
theorem sent_eq_nil {response : Response} (h : Frame.greatestLength < response.size) :
    sent response = [] ∧
      Frame.write (encode response.text) =
        .error (.tooLarge response.size Frame.greatestLength) := by
  refine ⟨if_pos h, ?_⟩
  rw [Frame.write, response.length_encode_text, if_pos h]

/-- The text in the first frame is taken for a request. -/
theorem requestOf_of_readText {limit : Nat} {received : Octets} {raw : String} {rest : Octets}
    (hread : Frame.readText limit received = .ok (raw, rest)) :
    requestOf limit received = Engine.parse raw := by
  rw [requestOf, hread]

/-- The text in the first frame is answered as the engine answers the text. -/
theorem generateText_of_readText (engine : Engine σ) {limit : Nat} {received : Octets}
    {raw : String} {rest : Octets} (hread : Frame.readText limit received = .ok (raw, rest))
    (state : σ) :
    engine.generateText raw state =
      ((respond engine.generate limit received state).1.map Response.text,
        (respond engine.generate limit received state).2) := by
  rw [respond, requestOf_of_readText hread, Engine.generateText]
  cases Engine.parse raw <;> rfl

/-- What a frame holds is taken for a request if it is a text. -/
theorem requestOf_write {body frame : Octets} (hframe : Frame.write body = .ok frame)
    {limit : Nat} (hlimit : body.length ≤ limit) (rest : Octets) {raw : String}
    (hraw : decode body = .ok raw) :
    requestOf limit (frame ++ rest) = Engine.parse raw := by
  obtain rfl := Text.Utf8.decode_eq_ok_iff.1 hraw
  exact requestOf_of_readText (Frame.readText_write_of_le hframe hlimit rest)

/-- The frame of a text, with nothing behind it, is taken for the request of the text. -/
theorem requestOf_frame {query : String} {frame : Octets}
    (hframe : Frame.write (encode query) = .ok frame) {limit : Nat}
    (hlimit : (encode query).length ≤ limit) : requestOf limit frame = Engine.parse query := by
  have hrequest := requestOf_write hframe hlimit [] (decode_encode query)
  rwa [List.append_nil] at hrequest

/-- A text in a frame is answered as the engine answers the text. -/
theorem generateText_eq_respond (engine : Engine σ) {query : String} {frame : Octets}
    (hframe : Frame.write (encode query) = .ok frame) {limit : Nat}
    (hlimit : (encode query).length ≤ limit) (state : σ) :
    engine.generateText query state =
      ((respond engine.generate limit frame state).1.map Response.text,
        (respond engine.generate limit frame state).2) := by
  have hread := Frame.readText_write_of_le hframe hlimit []
  rw [List.append_nil] at hread
  exact generateText_of_readText engine hread state

/-- What a frame holds is no request if it is no text of one. -/
theorem isError_requestOf {body frame : Octets} (hframe : Frame.write body = .ok frame)
    {limit : Nat} (hlimit : body.length ≤ limit) (rest : Octets)
    (h : ¬ ∃ raw request, decode body = .ok raw ∧ Request.ofText raw = .ok request) :
    ∃ failure, requestOf limit (frame ++ rest) = .error failure := by
  cases hraw : decode body with
  | error fault =>
    refine ⟨(FrameError.notText fault).toFailure.within "malformed request frame", ?_⟩
    rw [requestOf, Frame.readText, Frame.read_write hframe, if_neg (Nat.not_lt.2 hlimit)]
    simp only [hraw]
  | ok raw =>
    rw [requestOf_write hframe hlimit rest hraw, Engine.parse]
    cases hrequest : Request.ofText raw with
    | error error => exact ⟨_, rfl⟩
    | ok request => exact absurd ⟨raw, request, hraw, hrequest⟩ h

/-- The octets that answer a request whose search finds nothing. -/
theorem handle_of_no_candidates (engine : Engine σ) {state after : σ} {limit : Nat}
    {received : Octets} {request : Request} (hrequest : requestOf limit received = .ok request)
    (hanswer : engine.search.answer engine.predictor request.evidence state = (.ok [], after)) :
    (handle engine limit received state).1 = sent (.ofCandidates request []) := by
  rw [handle, serve, respond, hrequest]
  simp only [Engine.generate_of_no_candidates hanswer, responseOf]

/-- How a server answers a frame of an admissible length, if its search finds nothing.

What is no text of a request is answered with one frame, which carries the empty response.  A
request is answered with one frame, which carries the response without candidates, if the text of
that response has no more octets than a frame can state; otherwise nothing is written.

The text is short enough if the frame has no more than 8 323 000 octets, and whatever the length
of the frame if the request nests no more than 61 levels deep. -/
theorem handle_answers (engine : Engine σ) (state : σ) {body : Octets}
    (hbody : body.length ≤ Frame.standardLimit) (rest : Octets) :
    let received := Frame.header body.length ++ body ++ rest
    let answer := (handle engine Frame.standardLimit received state).1
    ((¬ ∃ raw request, decode body = .ok raw ∧ Request.ofText raw = .ok request) →
      Frame.write (encode Response.empty.text) = .ok answer) ∧
    ∀ raw request, decode body = .ok raw → Request.ofText raw = .ok request →
      (engine.search.answer engine.predictor request.evidence state).1 = .ok [] →
      let echo := Response.ofCandidates request []
      (echo.size ≤ Frame.greatestLength → Frame.write (encode echo.text) = .ok answer) ∧
      (Frame.greatestLength < echo.size → answer = []) ∧
      (body.length ≤ 8323000 → echo.size ≤ Frame.greatestLength) ∧
      (Value.ofTextWithin? 61 raw = some request.payload → echo.size ≤ Frame.greatestLength) := by
  intro received answer
  have hframe := Frame.write_of_le_standardLimit hbody
  constructor
  · intro hnone
    obtain ⟨failure, hfailure⟩ := isError_requestOf hframe hbody rest hnone
    have hanswer : answer = sent .empty := by
      show (handle engine Frame.standardLimit received state).1 = _
      rw [handle, serve, respond, hfailure]
      rfl
    rw [hanswer]
    exact write_text_eq_sent (by decide +kernel)
  · intro raw request hraw hrequest hnothing echo
    have hparsed : requestOf Frame.standardLimit received = .ok request :=
      (requestOf_write hframe hbody rest hraw).trans (Engine.parse_eq_ok hrequest)
    have hanswer : answer = sent echo :=
      handle_of_no_candidates engine hparsed (Prod.ext hnothing rfl)
    have hlength := Text.Utf8.length_of_decode hraw
    have hgreatest : Frame.greatestLength = 2147483647 := rfl
    rw [hanswer]
    refine ⟨write_text_eq_sent, fun h => (sent_eq_nil h).1, fun hshort => ?_, fun hdepth => ?_⟩
    · have hwithin : Value.ofTextWithin? Json.maxDepth raw = some request.payload :=
        (Value.ofTextWithin?_maxDepth raw).trans (Request.ofText?_of_ofText hrequest)
      have hsize : echo.size ≤ 258 * raw.length + 33 :=
        Response.size_ofCandidates_nil_le hwithin (by decide) (by decide)
      omega
    · have hsize : echo.size ≤ 126 * raw.length + 33 :=
        Response.size_ofCandidates_nil_le hdepth (by decide) (by decide)
      have hlimit : Frame.standardLimit = 16777216 := rfl
      omega

/-- The request of a zero is answered with one frame. -/
theorem handle_answers_zero :
    let engine := Engine.unproductive
    let request := Request.spreading []
    let body := encode request.payload.compact
    body.length ≤ Frame.standardLimit ∧
    (engine.search.answer engine.predictor request.evidence ()).1 = .ok [] ∧
    Frame.write (encode (Response.ofCandidates request []).text) =
      .ok (handle engine Frame.standardLimit (Frame.header body.length ++ body ++ []) ()).1 := by
  intro engine request body
  have hsize : body.length = 7 := Request.length_encode_spreading []
  have hbody : body.length ≤ Frame.standardLimit := by
    rw [hsize]
    decide
  obtain ⟨hfits, _, hshort, _⟩ := (handle_answers engine () hbody []).2 _ request
    (decode_encode _) (Request.ofText_spreading (Nat.zero_le 126)) rfl
  exact ⟨hbody, rfl, hfits (hshort (by rw [hsize]; decide))⟩

/-- A request of nine million octets, all of whose 378 880 zeros stand below 127 levels.  Its
search succeeds, but nothing is written: the lines of the response have more than two thousand
million octets. -/
theorem handle_writes_nothing :
    let engine := Engine.unproductive
    let request := Request.spreading (List.replicate 113 1 ++ [592, 640] ++ List.replicate 11 1)
    let raw := request.payload.compact
    let body := encode raw
    body.length ≤ Frame.standardLimit ∧ Request.ofText raw = .ok request ∧
    (engine.search.answer engine.predictor request.evidence ()).1 = .ok [] ∧
    (handle engine Frame.standardLimit (Frame.header body.length ++ body) ()).1 = [] := by
  intro engine request raw body
  have hsize : body.length = 9094537 :=
    (Request.length_encode_spreading _).trans (by decide +kernel)
  have hbody : body.length ≤ Frame.standardLimit := by
    rw [hsize]
    decide
  have hrequest : Request.ofText raw = .ok request := Request.ofText_spreading (by decide +kernel)
  have hresponse : (Response.ofCandidates request []).size = 2148932710 :=
    (Response.size_spreading _).trans (by decide +kernel)
  have hframe := Frame.write_of_le_standardLimit hbody
  have hparsed : requestOf Frame.standardLimit (Frame.header body.length ++ body) = .ok request :=
    (requestOf_frame hframe hbody).trans (Engine.parse_eq_ok hrequest)
  refine ⟨hbody, hrequest, rfl, ?_⟩
  rw [handle_of_no_candidates engine hparsed (Engine.answer_unproductive request.evidence)]
  exact (sent_eq_nil (by rw [hresponse]; decide)).1

/-! ### The side of the client -/

/-- What a client makes of a response that has left in a frame. -/
theorem response_sent {answer : Response} (h : answer.size ≤ Frame.greatestLength) :
    response (sent answer) =
      if Frame.standardLimit < answer.size then
        .error ((FrameError.tooLarge answer.size Frame.standardLimit).toFailure.within
          "failed to read response")
      else .ok answer.text := by
  have hread := Frame.readText_write (write_text_eq_sent h) Frame.standardLimit []
  rw [List.append_nil, answer.length_encode_text] at hread
  rw [response, hread]
  by_cases hlimit : Frame.standardLimit < answer.size
  · simp only [if_pos hlimit]
  · simp only [if_neg hlimit]

/-- A query that is no JSON text is not sent. -/
theorem exchange_of_not_json (engine : Engine σ) (limit : Nat) {query : String}
    (hquery : Value.ofText? query = none) (state : σ) :
    exchange engine limit query state = (.error (.of "evidence is not valid JSON"), state) := by
  rw [exchange, request, hquery]
  rfl

/-- A query that is sent is answered by the server. -/
theorem exchange_of_json (engine : Engine σ) {query : String}
    (hquery : (Value.ofText? query).isSome = true) {frame : Octets}
    (hframe : Frame.write (encode query) = .ok frame) (limit : Nat) (state : σ) :
    exchange engine limit query state =
      (response (sent (responseOf (respond engine.generate limit frame state).1)),
        (respond engine.generate limit frame state).2) := by
  rw [exchange, request, if_pos hquery, hframe]
  rfl

/-- What a client receives for a query that is short enough for the server.

A query that is no JSON text, or nests too deep, is not sent.  Where the engine has no answer to
the text of the query, the client receives the text of the empty response.  Where the engine has
one, the client receives it if it is no longer than a client reads, and is told its length if it is
longer but fits a frame.  In each case the session is left as the engine leaves it. -/
theorem exchange_eq (engine : Engine σ) (query : String) (state : σ)
    (hlength : (encode query).length ≤ Frame.standardLimit) :
    let answer := engine.generateText query state
    let exchanged := exchange engine Frame.standardLimit query state
    (Value.ofText? query = none →
      exchanged = (.error (.of "evidence is not valid JSON"), state)) ∧
    ((Value.ofText? query).isSome = true →
      (∀ failure, answer.1 = .error failure → exchanged = (.ok Response.empty.text, answer.2)) ∧
      ∀ text, answer.1 = .ok text →
        ((encode text).length ≤ Frame.standardLimit → exchanged = (.ok text, answer.2)) ∧
        (Frame.standardLimit < (encode text).length →
          (encode text).length ≤ Frame.greatestLength →
          exchanged =
            (.error ((FrameError.tooLarge (encode text).length Frame.standardLimit).toFailure.within
                "failed to read response"),
              answer.2))) := by
  intro answer exchanged
  refine ⟨fun hnone => exchange_of_not_json engine _ hnone state, fun hjson => ?_⟩
  have hframe := Frame.write_of_le_standardLimit hlength
  have hexchanged := exchange_of_json engine hjson hframe Frame.standardLimit state
  have hanswer := generateText_eq_respond engine hframe hlength state
  generalize respond engine.generate Frame.standardLimit _ state = responded at hexchanged hanswer
  obtain ⟨result, after⟩ := responded
  have hexchanged : exchanged = (response (sent (responseOf result)), after) := hexchanged
  have hanswer : answer = (result.map Response.text, after) := hanswer
  rw [hexchanged, hanswer]
  cases result with
  | error failure =>
    have hempty : Response.empty.size ≤ Frame.greatestLength := by decide +kernel
    refine ⟨fun _ _ => ?_, fun text htext => (by cases htext)⟩
    rw [responseOf, response_sent hempty, if_neg (by decide +kernel)]
  | ok sending =>
    refine ⟨fun failure hfailure => (by cases hfailure), fun text htext => ?_⟩
    obtain rfl : sending.text = text := Except.ok.inj htext
    rw [sending.length_encode_text]
    constructor
    · intro hsize
      have hfits := Nat.le_trans hsize Frame.standardLimit_le_greatestLength
      rw [responseOf, response_sent hfits, if_neg (Nat.not_lt.2 hsize)]
    · intro hsize hfits
      rw [responseOf, response_sent hfits, if_pos hsize]

/-- The query of a zero is answered with the text of the response. -/
theorem exchange_eq_zero :
    let request := Request.spreading []
    let query := request.payload.compact
    (encode query).length ≤ Frame.standardLimit ∧
    exchange Engine.unproductive Frame.standardLimit query () =
      (.ok (Response.ofCandidates request []).text, ()) := by
  intro request query
  have hquery : (encode query).length ≤ Frame.standardLimit := by
    rw [Request.length_encode_spreading []]
    decide
  have hrequest : Request.ofText query = .ok request := Request.ofText_spreading (Nat.zero_le 126)
  have hjson : (Value.ofText? query).isSome = true := by
    rw [Request.ofText?_of_ofText hrequest]
    rfl
  have hanswer : (Engine.unproductive.generateText query ()).1 =
      .ok (Response.ofCandidates request []).text :=
    congrArg Prod.fst (Engine.generateText_unproductive hrequest)
  have hsize : (encode (Response.ofCandidates request []).text).length ≤ Frame.standardLimit := by
    rw [Response.length_encode_text, Response.size_spreading []]
    decide
  exact ⟨hquery,
    (((exchange_eq Engine.unproductive query () hquery).2 hjson).2 _ hanswer).1 hsize⟩

/-- A query of 71 517 octets to which the engine has an answer, which the server sends and the
client refuses to read. -/
theorem exchange_refused :
    let request := Request.spreading (List.replicate 115 1 ++ [3240] ++ List.replicate 10 1)
    let query := request.payload.compact
    (encode query).length ≤ Frame.standardLimit ∧ (Value.ofText? query).isSome = true ∧
    Engine.unproductive.generateText query () = (.ok (Response.ofCandidates request []).text, ()) ∧
    exchange Engine.unproductive Frame.standardLimit query () =
      (.error ((FrameError.tooLarge 16872874 Frame.standardLimit).toFailure.within
        "failed to read response"), ()) := by
  intro request query
  have hlength : (encode query).length = 71517 :=
    (Request.length_encode_spreading _).trans (by decide +kernel)
  have hquery : (encode query).length ≤ Frame.standardLimit := by
    rw [hlength]
    decide
  have hrequest : Request.ofText query = .ok request := Request.ofText_spreading (by decide +kernel)
  have hjson : (Value.ofText? query).isSome = true := by
    rw [Request.ofText?_of_ofText hrequest]
    rfl
  have hsize : (Response.ofCandidates request []).size = 16872874 :=
    (Response.size_spreading _).trans (by decide +kernel)
  have hframe := Frame.write_of_le_standardLimit hquery
  have hparsed : requestOf Frame.standardLimit
      (Frame.header (encode query).length ++ encode query) = .ok request :=
    (requestOf_frame hframe hquery).trans (Engine.parse_eq_ok hrequest)
  have hresponded : respond Engine.unproductive.generate Frame.standardLimit
      (Frame.header (encode query).length ++ encode query) () =
        (.ok (.ofCandidates request []), ()) := by
    rw [respond, hparsed]
    exact Engine.generate_of_no_candidates (Engine.answer_unproductive request.evidence)
  refine ⟨hquery, hjson, Engine.generateText_unproductive hrequest, ?_⟩
  rw [exchange_of_json Engine.unproductive hjson hframe, hresponded, responseOf,
    response_sent (by rw [hsize]; decide), hsize, if_pos (by decide)]

end Connection

end EvidenceSynthesis
