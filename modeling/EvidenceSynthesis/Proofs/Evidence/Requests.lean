import EvidenceSynthesis.Evidence.Request
import Mathlib.Data.List.Forall2

/-!
# What a request asks for

A value is accepted as a request exactly if it is an object in which the members that are named
after kinds of evidence are arrays of strings (`Request.exists_ofValue_eq_ok_iff`).

A request asks for the tokens that these arrays list, and for none of a kind whose member is absent
(`Request.get_evidence`).  It asks for sets: two requests that list the same tokens ask for the
same, in whatever order and however often they list them, and whatever else they hold
(`Request.evidence_eq_of_listed`).
-/

namespace EvidenceSynthesis

open Json (Value Members Reader)

/-- A step and what follows it succeed together. -/
theorem bind_eq_ok_iff {ε α β : Type} {first : Except ε α} {next : α → Except ε β} {b : β} :
    (first >>= next) = .ok b ↔ ∃ a, first = .ok a ∧ next a = .ok b := by
  cases first with
  | error error => exact iff_of_false nofun fun ⟨_, h, _⟩ => nomatch h
  | ok a =>
    constructor
    · intro h
      exact ⟨a, rfl, h⟩
    · rintro ⟨_, ⟨⟩, h⟩
      exact h

/-- A list is read item by item. -/
theorem mapM_eq_ok_iff {ε α β : Type} {f : α → Except ε β} {items : List α} {results : List β} :
    items.mapM f = .ok results ↔
      List.Forall₂ (fun item result => f item = .ok result) items results := by
  induction items generalizing results with
  | nil =>
    rw [List.mapM_nil, List.forall₂_nil_left_iff]
    exact ⟨fun h => (Except.ok.inj h).symm, fun h => congrArg Except.ok h.symm⟩
  | cons item rest ih =>
    rw [List.mapM_cons, bind_eq_ok_iff, List.forall₂_cons_left_iff]
    constructor
    · rintro ⟨result, hresult, h⟩
      obtain ⟨others, hothers, h⟩ := bind_eq_ok_iff.1 h
      cases h
      exact ⟨result, others, hresult, ih.1 hothers, rfl⟩
    · rintro ⟨result, others, hresult, hothers, rfl⟩
      exact ⟨result, hresult, bind_eq_ok_iff.2 ⟨others, ih.2 hothers, rfl⟩⟩

/-! ### Lists of texts -/

namespace Json

/-- The texts among the items of an array. -/
def Value.texts (value : Value) : List String :=
  (value.items?.getD []).filterMap Value.text?

@[simp] theorem Value.texts_ofTexts (tokens : List String) : (ofTexts tokens).texts = tokens := by
  simp only [texts, ofTexts, items?, Option.getD_some, List.filterMap_map]
  exact List.filterMap_some

theorem Reader.text_eq_ok_iff {value : Value} {token : String} :
    text value = .ok token ↔ value = .string token := by
  cases value <;> simp [text]

theorem Reader.mapM_text_eq_ok_iff {items : List Value} {tokens : List String} :
    items.mapM text = .ok tokens ↔ items = tokens.map .string := by
  simp only [mapM_eq_ok_iff, text_eq_ok_iff]
  rw [← List.forall₂_map_right_iff, List.forall₂_eq_eq_eq]

/-- Texts are read exactly from the array of these texts. -/
theorem Reader.texts_eq_ok_iff {value : Value} {tokens : List String} :
    texts value = .ok tokens ↔ value = .ofTexts tokens := by
  cases value with
  | array items =>
    rw [Value.ofTexts, Value.array.injEq]
    exact mapM_text_eq_ok_iff
  | _ => simp [texts, list, Value.ofTexts]

/-! ### Members that are taken one by one -/

/-- What each member changes only if it has a certain name is, after members of distinct names, what
the member of that name makes it. -/
theorem Members.kept_of_foldlM {ε δ α : Type} (give : String → Value → δ → Except ε δ)
    (kept : δ → α) {taken : Value → α} {key : String}
    (hgive : ∀ {name value before after}, give name value before = .ok after →
      kept after = if name = key then taken value else kept before)
    {members : Members} (hnames : members.names.Nodup) {before after : δ}
    (h : members.foldlM (fun draft member => give member.1 member.2 draft) before = .ok after) :
    kept after = ((members.get? key).map taken).getD (kept before) := by
  induction members generalizing before with
  | nil =>
    cases h
    rfl
  | cons member rest ih =>
    obtain ⟨name, value⟩ := member
    obtain ⟨habsent, hrest⟩ := List.nodup_cons.1 hnames
    rw [List.foldlM_cons] at h
    obtain ⟨middle, hmiddle, h⟩ := bind_eq_ok_iff.1 h
    rw [ih hrest h, hgive hmiddle, Members.get?]
    by_cases hname : name = key
    · -- no member behind it has that name
      have hnone : Members.get? key rest = none :=
        Members.get?_eq_none_iff.2 (hname ▸ habsent)
      rw [if_pos hname, if_pos hname, hnone]
      rfl
    · rw [if_neg hname, if_neg hname]

end Json

/-! ### Names of kinds -/

/-- A name belongs to the kind that has it. -/
theorem Kind.ofName?_eq_some_iff {name : String} {kind : Kind} :
    ofName? name = some kind ↔ kind.name = name := by
  constructor
  · intro h
    have hfound := List.find?_some (p := fun kind : Kind => kind.name == name) h
    exact eq_of_beq hfound
  · rintro rfl
    cases kind <;> rfl

/-! ### Members of a request -/

/-- A change of one kind leaves the others. -/
theorem Evidence.get_modify (evidence : Evidence) (kind k : Kind) (change : TokenSet → TokenSet) :
    (evidence.modify kind change).get k =
      if k = kind then change (evidence.get k) else evidence.get k := by
  rw [modify, get_ofKinds]

namespace Request

/-- What a member does to the evidence: nothing if its name is none of a kind.  Otherwise it is a
list of texts, which are the tokens of that kind. -/
theorem give_eq_ok_iff {name : String} {value : Value} {before after : Evidence} :
    give name value before = .ok after ↔
      (Kind.ofName? name = none ∧ after = before) ∨
        ∃ kind : Kind, kind.name = name ∧ ∃ tokens, value = .ofTexts tokens ∧
          after = before.modify kind fun _ => .ofList tokens := by
  unfold give
  cases hname : Kind.ofName? name with
  | none =>
    constructor
    · intro h
      cases h
      exact Or.inl ⟨rfl, rfl⟩
    · rintro (⟨-, rfl⟩ | ⟨kind, hkind, -⟩)
      · rfl
      · rw [Kind.ofName?_eq_some_iff.2 hkind] at hname
        cases hname
  | some kind =>
    have hkind := Kind.ofName?_eq_some_iff.1 hname
    constructor
    · intro h
      cases htokens : Reader.texts value with
      | error error =>
        rw [htokens] at h
        cases h
      | ok tokens =>
        rw [htokens] at h
        cases h
        exact Or.inr ⟨kind, hkind, tokens, Reader.texts_eq_ok_iff.1 htokens, rfl⟩
    · rintro (⟨hnone, -⟩ | ⟨other, hother, tokens, rfl, rfl⟩)
      · cases hnone
      · obtain rfl := Kind.name_injective (hkind.trans hother.symm)
        show Except.map _ (Reader.texts _) = _
        rw [Reader.texts_eq_ok_iff.2 rfl]
        rfl

/-- A member changes the tokens of the kind it is named after, and those of no other. -/
theorem get_of_give {name : String} {value : Value} {before after : Evidence}
    (h : give name value before = .ok after) (kind : Kind) :
    after.get kind = if name = kind.name then .ofList value.texts else before.get kind := by
  rcases give_eq_ok_iff.1 h with ⟨hnone, rfl⟩ | ⟨own, rfl, tokens, rfl, rfl⟩
  · rw [if_neg]
    rintro rfl
    rw [Kind.ofName?_eq_some_iff.2 rfl] at hnone
    cases hnone
  · rw [Evidence.get_modify, Value.texts_ofTexts]
    by_cases hkind : kind = own
    · rw [if_pos hkind, if_pos (congrArg Kind.name hkind.symm)]
    · rw [if_neg hkind, if_neg fun hname => hkind (Kind.name_injective hname.symm)]

/-- The tokens of a kind after members of distinct names are those that the member of that name
lists. -/
theorem get_of_foldlM {members : Members} (hnames : members.names.Nodup) {before after : Evidence}
    (h : members.foldlM (fun draft member => give member.1 member.2 draft) before = .ok after)
    (kind : Kind) :
    after.get kind =
      match members.get? kind.name with
      | some value => .ofList value.texts
      | none => before.get kind := by
  have hget := Members.kept_of_foldlM give (fun evidence => evidence.get kind)
    (fun hgive => get_of_give hgive kind) hnames h
  cases hmember : members.get? kind.name with
  | none => rwa [hmember] at hget
  | some value => rwa [hmember] at hget

/-- A member is taken unless it is named after a kind and lists no texts. -/
theorem exists_give_eq_ok_iff {name : String} {value : Value} (before : Evidence) :
    (∃ after, give name value before = .ok after) ↔
      ∀ kind : Kind, kind.name = name → ∃ tokens, value = .ofTexts tokens := by
  constructor
  · rintro ⟨after, hafter⟩ kind hkind
    rcases give_eq_ok_iff.1 hafter with ⟨hnone, -⟩ | ⟨-, -, tokens, htokens, -⟩
    · rw [Kind.ofName?_eq_some_iff.2 hkind] at hnone
      cases hnone
    · exact ⟨tokens, htokens⟩
  · intro h
    cases hname : Kind.ofName? name with
    | none => exact ⟨before, give_eq_ok_iff.2 (Or.inl ⟨hname, rfl⟩)⟩
    | some kind =>
      have hkind := Kind.ofName?_eq_some_iff.1 hname
      obtain ⟨tokens, htokens⟩ := h kind hkind
      exact ⟨_, give_eq_ok_iff.2 (Or.inr ⟨kind, hkind, tokens, htokens, rfl⟩)⟩

/-- Members are taken unless one of them is not. -/
theorem exists_foldlM_eq_ok_iff {members : Members} {before : Evidence} :
    (∃ after, members.foldlM (fun draft member => give member.1 member.2 draft) before =
        .ok after) ↔
      ∀ member ∈ members, ∀ kind : Kind, kind.name = member.1 →
        ∃ tokens, member.2 = .ofTexts tokens := by
  induction members generalizing before with
  | nil => exact iff_of_true ⟨before, rfl⟩ (by simp)
  | cons member rest ih =>
    rw [List.forall_mem_cons, ← exists_give_eq_ok_iff before, List.foldlM_cons]
    constructor
    · rintro ⟨after, hafter⟩
      obtain ⟨middle, hmiddle, hrest⟩ := bind_eq_ok_iff.1 hafter
      exact ⟨⟨middle, hmiddle⟩, ih.1 ⟨after, hrest⟩⟩
    · rintro ⟨⟨middle, hmiddle⟩, hrest⟩
      obtain ⟨after, hafter⟩ := ih.2 hrest
      exact ⟨after, bind_eq_ok_iff.2 ⟨middle, hmiddle, hafter⟩⟩

/-! ### Values that are accepted -/

/-- The tokens that a value lists under the name of a kind. -/
def listed (payload : Value) (kind : Kind) : List String :=
  match payload.member? kind.name with
  | some value => value.texts
  | none => []

/-- A request consists of the object that it was read from and the evidence that its members make
up. -/
theorem ofValue_eq_ok_iff {payload : Value} {request : Request} :
    ofValue payload = .ok request ↔
      ∃ members evidence, payload = .object members ∧ form.giveAll members = .ok evidence ∧
        request = ⟨evidence, payload⟩ := by
  cases payload with
  | object members =>
    rw [ofValue]
    cases hevidence : form.giveAll members with
    | error error =>
      constructor
      · intro h
        cases h
      · rintro ⟨_, _, ⟨⟩, hown, -⟩
        cases hevidence.symm.trans hown
    | ok evidence =>
      constructor
      · intro h
        cases h
        exact ⟨members, evidence, rfl, hevidence, rfl⟩
      · rintro ⟨_, _, ⟨⟩, hown, rfl⟩
        cases hevidence.symm.trans hown
        rfl
  | _ => simp [ofValue]

section

variable {payload : Value}

/-- A request keeps the value that it was read from. -/
theorem payload_of_ofValue {request : Request} (h : ofValue payload = .ok request) :
    request.payload = payload := by
  obtain ⟨members, evidence, -, -, rfl⟩ := ofValue_eq_ok_iff.1 h
  rfl

/-- A value is accepted exactly if it is an object that lists texts wherever it names a kind. -/
theorem exists_ofValue_eq_ok_iff (hdistinct : payload.HasDistinctNames) :
    (∃ request, ofValue payload = .ok request) ↔
      ∃ members, payload = .object members ∧
        ∀ kind : Kind, ∀ value, Members.get? kind.name members = some value →
          ∃ tokens, value = Value.ofTexts tokens := by
  constructor
  · rintro ⟨request, h⟩
    obtain ⟨members, evidence, rfl, hevidence, -⟩ := ofValue_eq_ok_iff.1 h
    refine ⟨members, rfl, fun kind value hvalue => ?_⟩
    exact exists_foldlM_eq_ok_iff.1 ⟨evidence, hevidence⟩ _ (Members.mem_of_get? hvalue) kind rfl
  · rintro ⟨members, rfl, h⟩
    obtain ⟨hnames, -⟩ := hdistinct
    have htaken : ∃ evidence, form.giveAll members = .ok evidence := by
      refine exists_foldlM_eq_ok_iff.2 fun member hmember kind hkind => h kind member.2 ?_
      exact Members.get?_of_mem hnames (hkind ▸ hmember)
    obtain ⟨evidence, hevidence⟩ := htaken
    exact ⟨_, ofValue_eq_ok_iff.2 ⟨members, evidence, rfl, hevidence, rfl⟩⟩

/-- A request asks for the tokens that its value lists. -/
theorem get_evidence_of_ofValue (hdistinct : payload.HasDistinctNames) {request : Request}
    (h : ofValue payload = .ok request) (kind : Kind) :
    request.evidence.get kind = .ofList (listed payload kind) := by
  obtain ⟨members, evidence, rfl, hevidence, rfl⟩ := ofValue_eq_ok_iff.1 h
  obtain ⟨hnames, -⟩ := hdistinct
  have hget := get_of_foldlM hnames hevidence kind
  rw [hget, listed, Value.member?]
  cases Members.get? kind.name members with
  | none => exact TokenSet.ext fun token => by simp [form, Evidence.empty]
  | some value => rfl

end

/-! ### Texts that are accepted -/

/-- A text is a request exactly if it is a value that is one. -/
theorem ofText_eq_ok_iff {raw : String} {request : Request} :
    ofText raw = .ok request ↔
      ∃ payload, Value.ofText? raw = some payload ∧ ofValue payload = .ok request := by
  unfold ofText
  cases Value.ofText? raw with
  | none => simp
  | some payload => simp

section

variable {raw : String} {request : Request}

/-- A request keeps the value of its text. -/
theorem ofText?_of_ofText (h : ofText raw = .ok request) :
    Value.ofText? raw = some request.payload := by
  obtain ⟨payload, hpayload, hrequest⟩ := ofText_eq_ok_iff.1 h
  rw [hpayload, payload_of_ofValue hrequest]

/-- The value of a request was read from a document. -/
theorem exists_value?_of_ofText (h : ofText raw = .ok request) :
    ∃ document : Json.Document, document.value? Json.maxDepth = some request.payload := by
  obtain ⟨document, -, hdocument⟩ := Option.bind_eq_some_iff.1 (ofText?_of_ofText h)
  exact ⟨document, hdocument⟩

/-- The value of a request is an object. -/
theorem exists_payload_eq_object (h : ofText raw = .ok request) :
    ∃ members, request.payload = .object members := by
  obtain ⟨payload, -, hrequest⟩ := ofText_eq_ok_iff.1 h
  obtain ⟨members, evidence, rfl, -, rfl⟩ := ofValue_eq_ok_iff.1 hrequest
  exact ⟨members, rfl⟩

/-- A request asks for the tokens that it lists. -/
theorem get_evidence (h : ofText raw = .ok request) (kind : Kind) :
    request.evidence.get kind = .ofList (listed request.payload kind) := by
  obtain ⟨document, hdocument⟩ := exists_value?_of_ofText h
  obtain ⟨payload, -, hrequest⟩ := ofText_eq_ok_iff.1 h
  obtain rfl := payload_of_ofValue hrequest
  exact get_evidence_of_ofValue (Json.Document.hasDistinctNames_of_value? hdocument) hrequest kind

/-- Requests that list the same tokens ask for the same. -/
theorem evidence_eq_of_listed (h : ofText raw = .ok request) {otherRaw : String} {other : Request}
    (hother : ofText otherRaw = .ok other)
    (hlisted : ∀ kind token, token ∈ listed request.payload kind ↔
      token ∈ listed other.payload kind) :
    request.evidence = other.evidence := by
  refine Evidence.ext_get fun kind => ?_
  rw [get_evidence h, get_evidence hother]
  exact TokenSet.ofList_congr (hlisted kind)

end

end Request

end EvidenceSynthesis
