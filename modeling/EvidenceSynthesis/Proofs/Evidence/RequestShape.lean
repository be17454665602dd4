import EvidenceSynthesis.Proofs.Evidence.Requests
import Mathlib

/-!
# Which values are requests

A value is a request if it is an object in which the names of the kinds stand for lists of texts or
for nothing (`Request.IsRequest`).  Nothing else is asked of it, and nothing else has a part in the
evidence: the tokens of a kind are the texts of its list.

Every other value is refused as malformed.  The steps of the reader fail or succeed by themselves,
whatever the steps before them came to, so that the first fault in the order of the document is the
one that is reported (`Request.ofValue_eq_error_iff`).
-/

namespace EvidenceSynthesis

open Json (Value Members Reader ShapeError)

/-! ### The first fault -/

section

variable {ε α β δ : Type}

/-- Where a result is told by its fault, success is that there is none. -/
theorem eq_none_of_eq_ok {result : Except ε α} {fault? : Option ε}
    (hfault : ∀ error, result = .error error ↔ fault? = some error) {a : α}
    (hok : result = .ok a) : fault? = none := by
  refine Option.eq_none_iff_forall_ne_some.2 fun error herror => ?_
  rw [(hfault error).2 herror] at hok
  cases hok

variable {fault? : α → Option ε}

/-- A list that is read item by item is refused for its first fault. -/
theorem mapM_eq_error_iff {read : α → Except ε β}
    (hfault : ∀ item error, read item = .error error ↔ fault? item = some error) {items : List α}
    {error : ε} : items.mapM read = .error error ↔ items.findSome? fault? = some error := by
  induction items with
  | nil => exact iff_of_false nofun nofun
  | cons item rest ih =>
    rw [List.mapM_cons, List.findSome?_cons]
    cases hitem : read item with
    | error first =>
      rw [(hfault item first).1 hitem]
      exact ⟨fun h => congrArg some (Except.error.inj h), fun h => congrArg _ (Option.some.inj h)⟩
    | ok result =>
      rw [eq_none_of_eq_ok (hfault item) hitem]
      refine Iff.trans ?_ ih
      cases rest.mapM read with
      | error later => exact Iff.rfl
      | ok results => exact iff_of_false nofun nofun

/-- A draft to which one item after another is given is refused for their first fault. -/
theorem foldlM_eq_error_iff {give : δ → α → Except ε δ}
    (hfault : ∀ draft item error, give draft item = .error error ↔ fault? item = some error)
    {items : List α} {draft : δ} {error : ε} :
    items.foldlM give draft = .error error ↔ items.findSome? fault? = some error := by
  induction items generalizing draft with
  | nil => exact iff_of_false nofun nofun
  | cons item rest ih =>
    rw [List.foldlM_cons, List.findSome?_cons]
    cases hitem : give draft item with
    | error first =>
      rw [(hfault draft item first).1 hitem]
      exact ⟨fun h => congrArg some (Except.error.inj h), fun h => congrArg _ (Option.some.inj h)⟩
    | ok next =>
      rw [eq_none_of_eq_ok (hfault draft item) hitem]
      exact ih

end

/-! ### Lists of texts -/

namespace Json.Value

/-- What is wrong with a value that should be a text. -/
def textFault? (value : Value) : Option ShapeError :=
  if value.text?.isSome then none else some (.mismatch value .text)

/-- What is wrong with a value that should be a list of texts: it is no list, or an item is no
text. -/
def textsFault? : Value → Option ShapeError
  | array items => items.findSome? textFault?
  | value => some (.mismatch value .sequence)

/-- A value is refused as a text exactly with its fault as one. -/
theorem text_eq_error_iff (value : Value) (error : ShapeError) :
    Reader.text value = .error error ↔ value.textFault? = some error := by
  cases value <;> simp [Reader.text, textFault?, text?]

theorem texts_eq_error_iff (value : Value) (error : ShapeError) :
    Reader.texts value = .error error ↔ value.textsFault? = some error := by
  cases value with
  | array items => exact mapM_eq_error_iff text_eq_error_iff
  | _ => simp [Reader.texts, Reader.list, textsFault?]

theorem exists_eq_ofTexts_iff {value : Value} :
    (∃ tokens, value = ofTexts tokens) ↔
      ∃ items, value = array items ∧ ∀ item ∈ items, ∃ token, item = string token := by
  constructor
  · rintro ⟨tokens, rfl⟩
    refine ⟨tokens.map string, rfl, fun item hitem => ?_⟩
    obtain ⟨token, -, rfl⟩ := List.mem_map.1 hitem
    exact ⟨token, rfl⟩
  · rintro ⟨items, rfl, h⟩
    induction items with
    | nil => exact ⟨[], rfl⟩
    | cons item rest ih =>
      obtain ⟨⟨token, rfl⟩, hrest⟩ := List.forall_mem_cons.1 h
      obtain ⟨tokens, htokens⟩ := ih hrest
      cases htokens
      exact ⟨token :: tokens, rfl⟩

theorem mem_texts_iff {value : Value} {token : String} :
    token ∈ value.texts ↔ ∃ items, value = array items ∧ string token ∈ items := by
  cases value with
  | array items =>
    simp only [texts, items?, Option.getD_some, List.mem_filterMap, array.injEq,
      exists_eq_left']
    constructor
    · rintro ⟨item, hitem, htext⟩
      cases item with
      | string s =>
        cases htext
        exact hitem
      | _ => cases htext
    · intro h
      exact ⟨string token, h, rfl⟩
  | _ => simp [texts, items?]

end Json.Value

/-! ### Malformed requests -/

/-- What is said of a request or of settings that are malformed. -/
def EvidenceError.reason? : EvidenceError → Option String
  | notAnObject => some "request must be a JSON object"
  | notAList => some "evidence config must be a list"
  | shape error => some error.message
  | _ => none

/-- The message of a malformed request ends in its reason. -/
theorem EvidenceError.message_of_reason? {error : EvidenceError} {reason : String}
    (h : error.reason? = some reason) : error.message = "Malformed evidence: " ++ reason := by
  cases error <;> cases h <;> rfl

namespace Request

/-- What is wrong with a member: it is named after a kind and no list of texts. -/
def memberFault? (member : String × Value) : Option ShapeError :=
  if (Kind.ofName? member.1).isSome then member.2.textsFault? else none

/-- What is wrong with a value that is no request. -/
def fault? : Value → Option EvidenceError
  | .object members => (members.findSome? memberFault?).map .shape
  | _ => some .notAnObject

/-- A value is a request if it is an object in which the name of each kind stands for nothing or for
a list of texts. -/
def IsRequest (payload : Value) : Prop :=
  ∃ members, payload = .object members ∧
    ∀ kind : Kind, ∀ value, Members.get? kind.name members = some value →
      ∃ items, value = .array items ∧ ∀ item ∈ items, ∃ token, item = .string token

/-- A member is refused exactly with its fault, whatever came before. -/
theorem give_eq_error_iff (before : Evidence) (member : String × Value) (error : ShapeError) :
    give member.1 member.2 before = .error error ↔ memberFault? member = some error := by
  unfold give memberFault?
  cases Kind.ofName? member.1 with
  | none => exact iff_of_false nofun nofun
  | some kind =>
    refine Iff.trans ?_ (Value.texts_eq_error_iff member.2 error)
    cases Reader.texts member.2 with
    | error first =>
      exact ⟨fun h => congrArg _ (Except.error.inj h), fun h => congrArg _ (Except.error.inj h)⟩
    | ok tokens => exact iff_of_false nofun nofun

/-- A value is refused for its first fault. -/
theorem ofValue_eq_error_iff {payload : Value} {error : EvidenceError} :
    ofValue payload = .error error ↔ fault? payload = some error := by
  cases payload with
  | object members =>
    have hmembers (first : ShapeError) :
        form.giveAll members = .error first ↔ members.findSome? memberFault? = some first :=
      foldlM_eq_error_iff give_eq_error_iff
    rw [ofValue, fault?, Option.map_eq_some_iff]
    cases hevidence : form.giveAll members with
    | error first =>
      rw [(hmembers first).1 hevidence]
      constructor
      · rintro ⟨⟩
        exact ⟨first, rfl, rfl⟩
      · rintro ⟨_, ⟨⟩, rfl⟩
        rfl
    | ok evidence =>
      rw [eq_none_of_eq_ok hmembers hevidence]
      constructor
      · rintro ⟨⟩
      · rintro ⟨_, ⟨⟩, -⟩
  | _ => simp [ofValue, fault?]

section

variable {payload : Value} (hdistinct : payload.HasDistinctNames)

include hdistinct

/-- The values that are accepted are the requests. -/
theorem exists_ofValue_iff_isRequest :
    (∃ request, ofValue payload = .ok request) ↔ IsRequest payload := by
  rw [exists_ofValue_eq_ok_iff hdistinct]
  simp only [Value.exists_eq_ofTexts_iff]
  rfl

/-- The tokens of a kind are the texts of its list. -/
theorem mem_get_evidence_iff {request : Request} (h : ofValue payload = .ok request) {kind : Kind}
    {token : String} :
    token ∈ request.evidence.get kind ↔
      ∃ items, payload.member? kind.name = some (.array items) ∧ .string token ∈ items := by
  rw [get_evidence_of_ofValue hdistinct h kind, TokenSet.mem_ofList, listed]
  cases payload.member? kind.name with
  | none => simp
  | some value => simp [Value.mem_texts_iff]

/-- A member that is not named after a kind has no part in the evidence. -/
theorem ofValue_eq_of_member? {request : Request} (h : ofValue payload = .ok request)
    {others : Members} (hothers : (Value.object others).HasDistinctNames)
    (hsame : ∀ kind : Kind, Members.get? kind.name others = payload.member? kind.name) :
    ofValue (.object others) = .ok ⟨request.evidence, .object others⟩ := by
  obtain ⟨members, rfl, hlists⟩ := (exists_ofValue_iff_isRequest hdistinct).1 ⟨request, h⟩
  have hrequest : IsRequest (.object others) :=
    ⟨others, rfl, fun kind value hvalue => hlists kind value ((hsame kind).symm.trans hvalue)⟩
  obtain ⟨other, hother⟩ := (exists_ofValue_iff_isRequest hothers).2 hrequest
  have hevidence : other.evidence = request.evidence := by
    refine Evidence.ext_get fun kind => TokenSet.ext fun token => ?_
    rw [mem_get_evidence_iff hothers hother, mem_get_evidence_iff hdistinct h, ← hsame kind]
    rfl
  rw [hother, ← hevidence, ← payload_of_ofValue hother]

/-- Which values are requests.

A value is accepted exactly if it is an object in which the name of each kind stands for nothing or
for an array of strings.  The request then keeps the value, and asks for just the strings of these
arrays; an object with the same arrays asks for the same, whatever else it holds.

Every other value is refused as malformed: a value that is no object for that, and an object for the
first member in it that is named after a kind and is no array, or has an item that is no string. -/
theorem ofValue_accepts_iff :
    ((∃ request, ofValue payload = .ok request) ↔ IsRequest payload) ∧
    (∀ request, ofValue payload = .ok request →
      request.payload = payload ∧
      (∀ (kind : Kind) (token : String), token ∈ request.evidence.get kind ↔
        ∃ items, payload.member? kind.name = some (.array items) ∧ .string token ∈ items) ∧
      ∀ others : Members, (Value.object others).HasDistinctNames →
        (∀ kind : Kind, Members.get? kind.name others = payload.member? kind.name) →
          ofValue (.object others) = .ok ⟨request.evidence, .object others⟩) ∧
    (¬ IsRequest payload → ∃ error reason, ofValue payload = .error error ∧
      fault? payload = some error ∧ error.reason? = some reason ∧
        error.message = "Malformed evidence: " ++ reason) := by
  have haccepts := exists_ofValue_iff_isRequest hdistinct
  refine ⟨haccepts, fun request h => ⟨payload_of_ofValue h, fun kind token => ?_, ?_⟩, ?_⟩
  · exact mem_get_evidence_iff hdistinct h
  · exact fun others hothers hsame => ofValue_eq_of_member? hdistinct h hothers hsame
  · intro hno
    cases hvalue : ofValue payload with
    | ok request => exact absurd (haccepts.1 ⟨request, hvalue⟩) hno
    | error error =>
      have hfault := ofValue_eq_error_iff.1 hvalue
      have hreason : ∃ reason, error.reason? = some reason := by
        unfold fault? at hfault
        split at hfault
        · obtain ⟨first, -, rfl⟩ := Option.map_eq_some_iff.1 hfault
          exact ⟨_, rfl⟩
        · cases hfault
          exact ⟨_, rfl⟩
      obtain ⟨reason, hreason⟩ := hreason
      exact ⟨error, reason, rfl, hfault, hreason, EvidenceError.message_of_reason? hreason⟩

end

/-- An object is accepted that lists a text twice and holds something else, and one is refused of
which two members are wrong: the fault of the first one is reported. -/
theorem ofValue_accepts_iff_two :
    let accepted : Value := .object [("note", .null), ("types", .ofTexts ["B", "A", "B"])]
    let refused : Value :=
      .object [("types", .array [.string "A", .integer 1, .null]), ("context", .null)]
    accepted.HasDistinctNames ∧ refused.HasDistinctNames ∧
      (∃ request, ofValue accepted = .ok request ∧ request.payload = accepted ∧
        "A" ∈ request.evidence.get .types) ∧
      ofValue refused = .error (.shape (.mismatch (.integer 1) .text)) := by
  intro accepted refused
  have haccepted : accepted.HasDistinctNames := by
    refine ⟨by decide, trivial, ?_, trivial⟩
    exact ⟨trivial, trivial, trivial, trivial⟩
  have hrefused : refused.HasDistinctNames := by
    refine ⟨by decide, ?_, trivial, trivial⟩
    exact ⟨trivial, trivial, trivial, trivial⟩
  have hlists : ∀ kind : Kind, ∀ value,
      accepted.member? kind.name = some value → value = .ofTexts ["B", "A", "B"] := by
    intro kind value hvalue
    cases kind <;> cases hvalue
    rfl
  have hrequest : IsRequest accepted := by
    refine ⟨_, rfl, fun kind value hvalue => ?_⟩
    rw [← Value.exists_eq_ofTexts_iff]
    exact ⟨_, hlists kind value hvalue⟩
  have hno : ¬ IsRequest refused := by
    rintro ⟨members, hobject, hitems⟩
    obtain rfl := Value.object.inj hobject
    obtain ⟨items, hitems, hall⟩ := hitems .types _ rfl
    obtain rfl := Value.array.inj hitems
    obtain ⟨token, htoken⟩ := hall (.integer 1) (by simp)
    cases htoken
  obtain ⟨request, hread⟩ := (ofValue_accepts_iff haccepted).1.2 hrequest
  obtain ⟨hpayload, htokens, -⟩ := (ofValue_accepts_iff haccepted).2.1 request hread
  obtain ⟨error, -, herror, hfault, -⟩ := (ofValue_accepts_iff hrefused).2.2 hno
  cases hfault
  refine ⟨haccepted, hrefused, ⟨request, hread, hpayload, ?_⟩, herror⟩
  exact (htokens .types "A").2 ⟨_, rfl, by simp⟩

end Request

end EvidenceSynthesis
