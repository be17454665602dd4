import EvidenceSynthesis.Proofs.Evidence.Requests
import EvidenceSynthesis.Proofs.Json.Size
import EvidenceSynthesis.Search.Response

/-!
# Responses are read back

A response repeats the value of its request and lists candidates.  Both were read from texts, and
both stand deeper in the response than they stood there: the value of the request by one level,
a tree by two.  The text of the response is read back as the response as long as the deeper
place leaves enough of the depth that a reader allows, and is refused otherwise
(`Response.ofText?_text`).

What is read back holds the value of the request with its members in their order, and for each
candidate the members of its tree but for those whose names are taken, the calls in increasing
order, and the count.
-/

namespace EvidenceSynthesis

open Json (Value Members)

/-! ### Trees that were read -/

namespace Tree

/-- A tree is read back from its text, if it does not nest too deep. -/
theorem ofText?_compact {tree : Tree} (hnumbers : tree.toValue.EveryNumber Value.ReadsBack)
    (hnesting : tree.toValue.nesting ≤ Json.maxDepth) :
    ofText? tree.toValue.compact = some tree := by
  have hread := Value.ofText?_written tree.hasDistinctNames_toValue hnumbers .compact
  rw [if_pos hnesting] at hread
  obtain ⟨document, hdocument, hvalue⟩ := Option.bind_eq_some_iff.1 hread
  rw [ofText?, Value.compact, hdocument, Option.bind_some]
  unfold ofDocument?
  split
  · rename_i members hmembers
    cases hvalue.symm.trans hmembers
    rfl
  · rename_i hnone
    exact absurd hvalue (hnone _)

/-- A tree that was read has integers that fit words. -/
theorem integersFit_of_ofText? {text : String} {tree : Tree} (h : ofText? text = some tree) :
    tree.toValue.EveryNumber Value.IntegerFits := by
  obtain ⟨document, _, hdocument⟩ := Option.bind_eq_some_iff.1 h
  unfold ofDocument? at hdocument
  split at hdocument
  · rename_i members hvalue
    cases hdocument
    exact Value.integersFit_of_value? hvalue
  · cases hdocument

end Tree

/-! ### Requests that were read -/

namespace Request

/-- The text of a value is read as the request of that value, if it does not nest too deep. -/
theorem ofText_compact {payload : Value} (hnames : payload.HasDistinctNames)
    (hnumbers : payload.EveryNumber Value.ReadsBack) (hnesting : payload.nesting ≤ Json.maxDepth) :
    ofText payload.compact = ofValue payload := by
  have hread := Value.ofText?_written hnames hnumbers .compact
  rw [if_pos hnesting] at hread
  rw [ofText, Value.compact, hread]

end Request

/-! ### Candidates -/

namespace Candidate

variable (candidate : Candidate)

/-- No two members of a candidate as it is written have the same name. -/
theorem hasDistinctNames_toValue : candidate.toValue.HasDistinctNames := by
  obtain ⟨hnames, hmembers⟩ := candidate.tree.distinct
  have hown : ∀ name ∈ Members.names
      (candidate.tree.members.filter fun member => isOwn member.1), isOwn name = true := by
    intro name hname
    obtain ⟨member, hmember, rfl⟩ := List.mem_map.1 hname
    exact (List.mem_filter.1 hmember).2
  constructor
  · have htaken : [callsKey, countKey].Nodup := by decide
    rw [members, Members.names, List.map_append, List.nodup_append]
    refine ⟨hnames.sublist (List.filter_sublist.map _), htaken, ?_⟩
    intro name hname other hother
    rintro rfl
    have hnot : isOwn name = false := by
      rcases List.mem_pair.1 hother with rfl | rfl <;> rfl
    rw [hown name hname] at hnot
    cases hnot
  · refine Value.membersHaveDistinctNames_iff.2 fun member hmember => ?_
    rcases List.mem_append.1 hmember with htree | htaken
    · exact Value.membersHaveDistinctNames_iff.1 hmembers member (List.mem_filter.1 htree).1
    · rcases List.mem_pair.1 htaken with rfl | rfl
      · refine Value.itemsHaveDistinctNames_iff.2 fun item hitem => ?_
        obtain ⟨call, _, rfl⟩ := List.mem_map.1 hitem
        trivial
      · trivial

/-- A count is read back. -/
theorem readsBack_count : (Value.ofNat candidate.count.toNat).ReadsBack := by
  have hcount := candidate.count.toNat_lt
  refine Value.readsBack_integer ?_
  simp only [Json.Numeral.Fits, Word.bound63, Word.bound64]
  omega

/-- A property of numbers that those of the tree and the count have. -/
theorem everyNumber_toValue {p : Value → Prop} (htree : candidate.tree.toValue.EveryNumber p)
    (hcount : p (.ofNat candidate.count.toNat)) : candidate.toValue.EveryNumber p := by
  refine Value.everyNumberOfMembers_iff.2 fun member hmember => ?_
  rcases List.mem_append.1 hmember with hown | htaken
  · exact Value.everyNumberOfMembers_iff.1 htree member (List.mem_filter.1 hown).1
  · rcases List.mem_pair.1 htaken with rfl | rfl
    · refine Value.everyNumberOfItems_iff.2 fun item hitem => ?_
      obtain ⟨call, _, rfl⟩ := List.mem_map.1 hitem
      trivial
    · exact hcount

/-- How deep a candidate nests depends on the members that its tree keeps. -/
theorem nesting_toValue_le_iff {n : Nat} :
    candidate.toValue.nesting ≤ n + 2 ↔
      ∀ member ∈ candidate.tree.members, isOwn member.1 = true → member.2.nesting ≤ n + 1 := by
  have hcalls : (Value.ofTexts candidate.calls.toList).nesting ≤ n + 1 := by
    refine Value.nesting_array_le_iff.2 fun item hitem => ?_
    obtain ⟨call, _, rfl⟩ := List.mem_map.1 hitem
    exact Nat.zero_le n
  have hcount : (Value.ofNat candidate.count.toNat).nesting ≤ n + 1 := Nat.zero_le _
  rw [toValue, Value.nesting_object_le_iff, members, List.forall_mem_append]
  simp only [List.mem_filter, List.forall_mem_cons, hcalls, hcount, and_imp, List.not_mem_nil,
    false_implies, implies_true, and_true]

end Candidate

/-! ### Responses -/

namespace Response

variable {request : Request} {candidates : List Candidate}

/-- A response has distinct names if the request's payload has. -/
theorem hasDistinctNames_toValue (hpayload : request.payload.HasDistinctNames) :
    (ofCandidates request candidates).toValue.HasDistinctNames := by
  have hnames : ["evidences", "asts"].Nodup := by decide
  refine ⟨hnames, hpayload, ?_, trivial⟩
  refine Value.itemsHaveDistinctNames_iff.2 fun item hitem => ?_
  obtain ⟨candidate, _, rfl⟩ := List.mem_map.1 hitem
  exact candidate.hasDistinctNames_toValue

/-- The numbers of a response are those of the payload and the candidates. -/
theorem everyNumber_toValue {p : Value → Prop} (hpayload : request.payload.EveryNumber p)
    (hcandidates : ∀ candidate ∈ candidates, candidate.toValue.EveryNumber p) :
    (ofCandidates request candidates).toValue.EveryNumber p := by
  refine ⟨hpayload, ?_, trivial⟩
  refine Value.everyNumberOfItems_iff.2 fun item hitem => ?_
  obtain ⟨candidate, hcandidate, rfl⟩ := List.mem_map.1 hitem
  exact hcandidates candidate hcandidate

/-- The value of the request stands one level deeper in the response, the candidates two. -/
theorem nesting_toValue_le_iff {n : Nat} :
    (ofCandidates request candidates).toValue.nesting ≤ n + 4 ↔
      request.payload.nesting ≤ n + 3 ∧
        ∀ candidate ∈ candidates, ∀ member ∈ candidate.tree.members,
          Candidate.isOwn member.1 = true → member.2.nesting ≤ n + 1 := by
  have hitems : (Value.array (candidates.map Candidate.toValue)).nesting ≤ n + 3 ↔
      ∀ candidate ∈ candidates, candidate.toValue.nesting ≤ n + 2 := by
    rw [Value.nesting_array_le_iff, List.forall_mem_map]
  rw [toValue, Value.nesting_object_le_iff, List.forall_mem_cons, List.forall_mem_singleton]
  simp only [ofCandidates, hitems, Candidate.nesting_toValue_le_iff]

/-- The text of a response is read back as the response where its parts leave it enough of the
depth that a reader allows, and is refused otherwise. -/
theorem ofText?_text_eq (hnames : request.payload.HasDistinctNames)
    (hpayload : request.payload.EveryNumber Value.ReadsBack)
    (hcandidates : ∀ candidate ∈ candidates,
      candidate.tree.toValue.EveryNumber Value.ReadsBack) :
    let response := ofCandidates request candidates
    Value.ofText? response.text =
      if request.payload.nesting ≤ 126 ∧
          ∀ candidate ∈ candidates, ∀ member ∈ candidate.tree.members,
            Candidate.isOwn member.1 = true → member.2.nesting ≤ 124
      then some response.toValue else none := by
  intro response
  have hnumbers : response.toValue.EveryNumber Value.ReadsBack := by
    refine everyNumber_toValue hpayload fun candidate hcandidate => ?_
    refine candidate.everyNumber_toValue (hcandidates candidate hcandidate) ?_
    exact candidate.readsBack_count
  have hread := Value.ofText?_written (hasDistinctNames_toValue hnames) hnumbers Value.prettyStyle
  rw [text, Value.pretty, hread]
  simp only [← nesting_toValue_le_iff]
  rfl

/-- A response to a request that was read, with candidates whose trees were read, can be read if
the value of the request nests at most 126 levels deep and no member that a tree keeps more than
124.  What is read is an object of two members.  The first is the value of the request.  The second
holds an object for each candidate, in order: the members of the tree but for those that are named
like the other two, the calls in strictly increasing order, and the count.

In every other case the text of the response is refused.

That the texts of binary64 numbers are read back is assumed of the numbers that occur. -/
theorem ofText?_text {raw : String} (hrequest : Request.ofText raw = .ok request)
    (htrees : ∀ candidate ∈ candidates, ∃ tree, Tree.ofText? tree = some candidate.tree)
    (hpayload : request.payload.EveryNumber Value.FloatReadsBack)
    (hcandidates : ∀ candidate ∈ candidates,
      candidate.tree.toValue.EveryNumber Value.FloatReadsBack) :
    let response := ofCandidates request candidates
    let asts := candidates.map fun candidate =>
      Value.object
        (candidate.tree.members.filter
            (fun member => member.1 != "calls" && member.1 != "count") ++
          [("calls", .array (candidate.calls.toList.map .string)),
           ("count", .integer candidate.count.toNat)])
    Value.ofText? raw = some request.payload ∧
    (∀ candidate ∈ candidates, candidate.calls.toList.Pairwise (· < ·)) ∧
    Value.ofText? response.text =
      if request.payload.nesting ≤ 126 ∧
          ∀ candidate ∈ candidates, ∀ member ∈ candidate.tree.members,
            Candidate.isOwn member.1 = true → member.2.nesting ≤ 124
      then some (.object [("evidences", request.payload), ("asts", .array asts)])
      else none := by
  intro response asts
  obtain ⟨document, hdocument⟩ := Request.exists_value?_of_ofText hrequest
  refine ⟨Request.ofText?_of_ofText hrequest, fun candidate _ => candidate.calls.sorted, ?_⟩
  refine ofText?_text_eq (Json.Document.hasDistinctNames_of_value? hdocument) ?_ ?_
  · exact Value.everyNumber_readsBack (Value.integersFit_of_value? hdocument) hpayload
  · intro candidate hcandidate
    obtain ⟨tree, htree⟩ := htrees candidate hcandidate
    exact Value.everyNumber_readsBack (Tree.integersFit_of_ofText? htree)
      (hcandidates candidate hcandidate)

/-- The number `1e20`, whose text has an exponent. -/
def hundredQuintillion : Decimal.Binary64 :=
  ⟨false, 6103515625000000, 14, by decide⟩

theorem readsBack_hundredQuintillion : (Value.float hundredQuintillion).ReadsBack := by
  have hinteger : Json.Numeral.integer? ⟨false, ['1'], none, some 20⟩ = none := rfl
  have hfloat : Json.Numeral.float? ⟨false, ['1'], none, some 20⟩ = some hundredQuintillion := by
    decide +kernel
  refine ⟨⟨false, ['1'], none, some 20⟩, ?_, ?_⟩
  · rw [Value.writtenLeaf, Decimal.Binary64.text, String.toList_ofList]
    decide +kernel
  · rw [Json.Numeral.value?, hinteger, hfloat]
    rfl

/-- A tree with a member that is named like the calls. -/
def clashingTree : Tree where
  members := [("node", .string "DSubTree"), ("calls", .integer 7), ("_nodes", .array [])]
  distinct := by
    simp [Value.HasDistinctNames, Members.names, Value.MembersHaveDistinctNames,
      Value.ItemsHaveDistinctNames]

/-- The member that is named like the calls gives way to the calls of the candidate. -/
theorem ofText?_text_hundredQuintillion :
    let payload : Value := .object [("limit", .float hundredQuintillion), ("a", .array [.null])]
    let candidate : Candidate := ⟨clashingTree, ⟨["a", "b"], by decide⟩, 2⟩
    let response := ofCandidates ⟨.empty, payload⟩ [candidate]
    Request.ofText payload.compact = .ok ⟨.empty, payload⟩ ∧
    Tree.ofText? clashingTree.toValue.compact = some clashingTree ∧
    Value.ofText? response.text =
      some (.object
        [("evidences", payload),
         ("asts", .array [.object
           [("node", .string "DSubTree"), ("_nodes", .array []),
            ("calls", .array [.string "a", .string "b"]), ("count", .integer 2)]])]) := by
  intro payload candidate response
  have hnames : payload.HasDistinctNames := by
    simp [payload, Value.HasDistinctNames, Members.names, Value.MembersHaveDistinctNames,
      Value.ItemsHaveDistinctNames]
  have hrequest : Request.ofText payload.compact = .ok ⟨.empty, payload⟩ :=
    Request.ofText_compact hnames ⟨readsBack_hundredQuintillion, ⟨trivial, trivial⟩, trivial⟩
      (by decide)
  have htree : Tree.ofText? clashingTree.toValue.compact = some clashingTree :=
    Tree.ofText?_compact ⟨trivial, Value.readsBack_integer (by decide), trivial, trivial⟩
      (by decide)
  have htrees : ∀ other ∈ [candidate], ∃ tree, Tree.ofText? tree = some (Candidate.tree other) := by
    intro other hmem
    rw [List.mem_singleton.1 hmem]
    exact ⟨_, htree⟩
  have hcandidates : ∀ other ∈ [candidate],
      (Candidate.tree other).toValue.EveryNumber Value.FloatReadsBack := by
    intro other hmem
    rw [List.mem_singleton.1 hmem]
    exact ⟨trivial, trivial, trivial, trivial⟩
  have hread := ofText?_text hrequest htrees
    ⟨readsBack_hundredQuintillion, ⟨trivial, trivial⟩, trivial⟩ hcandidates
  exact ⟨hrequest, htree, hread.2.2⟩

end Response

/-! ### Requests that hold arrays of equal items -/

namespace Request

/-- The request that holds arrays of equal items under a name that is none of a category. -/
def spreading (counts : List Nat) : Request :=
  ⟨.empty, .object [("a", .spread counts)]⟩

theorem hasDistinctNames_spreading (counts : List Nat) :
    (spreading counts).payload.HasDistinctNames :=
  ⟨by simp [Members.names], Value.hasDistinctNames_spread counts, trivial⟩

theorem readsBack_spreading (counts : List Nat) :
    (spreading counts).payload.EveryNumber Value.ReadsBack :=
  ⟨Value.readsBack_spread counts, trivial⟩

/-- The payload nests one level deeper than the arrays in it. -/
theorem nesting_spreading (counts : List Nat) :
    (spreading counts).payload.nesting = (Value.spread counts).nesting + 1 := by
  simp [spreading, Value.nesting, Value.nestingOfMembers]

/-- It is read from its text, if its arrays do not nest too deep. -/
theorem ofText_spreading {counts : List Nat} (h : counts.length ≤ 126) :
    ofText (spreading counts).payload.compact = .ok (spreading counts) := by
  have hnesting : (spreading counts).payload.nesting ≤ Json.maxDepth := by
    rw [nesting_spreading]
    exact Nat.add_le_add_right (Nat.le_trans (Value.nesting_spread_le counts) h) 1
  exact ofText_compact (hasDistinctNames_spreading counts) (readsBack_spreading counts) hnesting

end Request

namespace Response

/-- The response to a request that nests as deep as a reader allows cannot be read. -/
theorem ofText?_text_refused :
    let request := Request.spreading (List.replicate 126 1)
    Request.ofText request.payload.compact = .ok request ∧
      Value.ofText? (ofCandidates request []).text = none := by
  intro request
  have hlength : (List.replicate 126 1).length = 126 := List.length_replicate
  have hpositive : ∀ n ∈ List.replicate 126 1, 0 < n := by
    intro n hn
    rw [List.eq_of_mem_replicate hn]
    exact Nat.one_pos
  have hnesting : request.payload.nesting = 127 := by
    rw [Request.nesting_spreading, Value.nesting_spread hpositive, hlength]
  have hnone : ∀ candidate ∈ ([] : List Candidate),
      candidate.tree.toValue.EveryNumber Value.ReadsBack := by simp
  refine ⟨Request.ofText_spreading (Nat.le_of_eq hlength), ?_⟩
  refine (ofText?_text_eq (Request.hasDistinctNames_spreading _)
    (Request.readsBack_spreading _) hnone).trans (if_neg fun h => ?_)
  have hle : request.payload.nesting ≤ 126 := h.1
  omega

end Response

end EvidenceSynthesis
