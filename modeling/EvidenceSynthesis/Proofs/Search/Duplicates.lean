import EvidenceSynthesis.Proofs.Search.Selection
import EvidenceSynthesis.Server.Engine
import Mathlib

/-!
# Candidates that are told apart and look alike

Candidates are told apart by their whole trees, while a tree is written without its members that are
named like the calls and the count.  So two candidates can look alike as they are written, but for
their calls and their counts, without being the same: just those whose trees differ in these members
alone (`Candidate.same_iff_program`).  The candidates of a response are told apart, and thus no two
of them look alike unless they differ so (`Engine.pairwise_generate`).
-/

namespace EvidenceSynthesis

open Json (Value Members)

/-! ### Members by name -/

namespace Json

/-- What is left of the members of certain names is found under these names. -/
theorem Members.get?_filter (keep : String → Bool) (name : String) (members : Members) :
    get? name (members.filter fun member => keep member.1) =
      if keep name then get? name members else none := by
  induction members with
  | nil => simp
  | cons member rest ih =>
    by_cases hname : member.1 = name
    · subst hname
      by_cases hkeep : keep member.1 = true <;> simp [get?, hkeep, ih]
    · by_cases hkeep : keep member.1 = true <;> simp [get?, hname, hkeep, ih]

/-- Two objects are equal if every name leads to nothing in both or to values that are equal. -/
theorem Value.equal_object_iff {members others : Members} :
    Equal (object members) (object others) ↔
      ∀ name, Option.Rel Equal (Members.get? name members) (Members.get? name others) := by
  simp only [rel_iff]
  constructor
  · intro h name
    cases h with
    | object hnone hequal => exact ⟨hnone name, hequal name⟩
  · intro h
    exact .object (fun name => (h name).1) fun name => (h name).2

end Json

/-! ### Candidates as they are written -/

namespace Candidate

/-- A candidate as it is written, without its calls and its count. -/
def program (candidate : Candidate) : Value :=
  .object (candidate.members.filter fun member => isOwn member.1)

/-- Two trees agree on the members that are not written: on those that are named like the calls and
the count. -/
def AgreesOnTaken (a b : Candidate) : Prop :=
  ∀ name, isOwn name = false →
    Option.Rel Value.Equal (Members.get? name a.tree.members) (Members.get? name b.tree.members)

variable {a b : Candidate}

/-- What is written of a candidate without its calls and its count is what is written of its
tree. -/
theorem program_eq (candidate : Candidate) :
    candidate.program =
      .object (candidate.tree.members.filter fun member => isOwn member.1) := by
  have htaken : isOwn callsKey = false ∧ isOwn countKey = false := ⟨rfl, rfl⟩
  unfold program members
  rw [List.filter_append, List.filter_filter]
  simp [htaken]

/-- Programs are equal exactly if their trees agree on every name of their own. -/
theorem equal_program_iff :
    Value.Equal a.program b.program ↔
      ∀ name, isOwn name = true →
        Option.Rel Value.Equal (Members.get? name a.tree.members)
          (Members.get? name b.tree.members) := by
  rw [program_eq, program_eq, Value.equal_object_iff]
  simp only [Members.get?_filter]
  refine forall_congr' fun name => ?_
  cases isOwn name with
  | true => simp
  | false => simp

/-- Candidates are the same if they look alike and agree on the members that are not written. -/
theorem same_iff_program :
    a.same b = true ↔ Value.Equal a.program b.program ∧ a.AgreesOnTaken b := by
  rw [same_iff_equal, Tree.toValue, Tree.toValue, Value.equal_object_iff, equal_program_iff]
  unfold AgreesOnTaken
  constructor
  · intro h
    exact ⟨fun name _ => h name, fun name _ => h name⟩
  · rintro ⟨hown, htaken⟩ name
    cases hname : isOwn name with
    | true => exact hown name hname
    | false => exact htaken name hname

/-- Trees without members of these names agree on them. -/
theorem agreesOnTaken_of_none
    (ha : ∀ name, isOwn name = false → Members.get? name a.tree.members = none)
    (hb : ∀ name, isOwn name = false → Members.get? name b.tree.members = none) :
    a.AgreesOnTaken b := by
  intro name hname
  rw [ha name hname, hb name hname]
  exact .none

end Candidate

/-! ### Responses -/

namespace Engine

variable {σ : Type}

/-- The candidates of a response are told apart. -/
theorem pairwise_generate {engine : Engine σ} {request : Request} {state final : σ}
    {response : Response} (h : engine.generate request state = (.ok response, final)) :
    response.candidates.Pairwise fun a b => a.same b = false := by
  unfold generate at h
  rcases hanswer : engine.search.answer engine.predictor request.evidence state with
    ⟨interruption | result, last⟩
  · rw [hanswer] at h
    cases h
  · rw [hanswer] at h
    cases h
    obtain ⟨run, hsample, rfl⟩ := Search.answer_eq_ok_iff.1 hanswer
    obtain ⟨hpool, -⟩ := engine.search.pool_eq_of_sample_eq_ok engine.predictor request.evidence
      state hsample
    apply Search.pairwise_select
    rw [hpool]
    exact Pool.reflects_observeAll _

/-- Which candidates look alike.

Two candidates are the same exactly if they are equal as they are written, without the calls and the
count, and if their trees agree on the members that are not written because they are named like
these.  No two candidates of a response are equal without the calls and the count, unless their
trees disagree on such members; and none at all if no tree of the response has any. -/
theorem equal_program_of_response :
    (∀ a b : Candidate,
      a.same b = true ↔ Value.Equal a.program b.program ∧ a.AgreesOnTaken b) ∧
    ∀ (engine : Engine σ) (request : Request) (state final : σ) (response : Response),
      engine.generate request state = (.ok response, final) →
        (response.candidates.Pairwise fun a b =>
          Value.Equal a.program b.program → ¬ a.AgreesOnTaken b) ∧
        ((∀ candidate ∈ response.candidates, ∀ name, Candidate.isOwn name = false →
            Members.get? name candidate.tree.members = none) →
          response.candidates.Pairwise fun a b => ¬ Value.Equal a.program b.program) := by
  refine ⟨fun a b => Candidate.same_iff_program, fun engine request state final response h => ?_⟩
  have hdistinct : response.candidates.Pairwise fun a b =>
      Value.Equal a.program b.program → ¬ a.AgreesOnTaken b := by
    refine (pairwise_generate h).imp fun {a b} hab hequal hagrees => ?_
    rw [Candidate.same_iff_program.2 ⟨hequal, hagrees⟩] at hab
    cases hab
  refine ⟨hdistinct, fun hnone => ?_⟩
  refine hdistinct.imp_of_mem fun {a b} ha hb hab hequal => ?_
  exact hab hequal (Candidate.agreesOnTaken_of_none (hnone a ha) (hnone b hb))

/-- A tree with a member of its own that is named like the count. -/
def countingTree : Tree where
  members := [(Tree.nodeKey, .string "A"), (Candidate.countKey, .ofNat 99)]
  distinct := ⟨by decide, trivial, trivial, trivial⟩

/-- An engine that considers two candidates and draws the trees of a list. -/
def drawingTwo (trees : List Tree) : Engine Nat where
  predictor := .ofDraws (trees.map fun tree => .sampled tree [])
  search := ⟨⟨2, 1, 2⟩, by decide⟩

/-- The response to a request for nothing after draws of two trees with different nodes. -/
theorem equal_program_of_response_two :
    let request : Request := ⟨.empty, .object []⟩
    let first : Candidate := ⟨.single "A", .ofList [], 1⟩
    let second : Candidate := ⟨.single "B", .ofList [], 1⟩
    (drawingTwo [.single "A", .single "B"]).generate request 0 =
        (.ok ⟨.object [], [first, second]⟩, 2) ∧
      ¬ Value.Equal first.program second.program := by
  intro request first second
  have hgenerate : (drawingTwo [.single "A", .single "B"]).generate request 0 =
      (.ok ⟨.object [], [first, second]⟩, 2) := rfl
  refine ⟨hgenerate, ?_⟩
  have hpairs := (equal_program_of_response.2 _ _ _ _ _ hgenerate).2 ?_
  · exact List.rel_of_pairwise_cons hpairs (List.mem_singleton_self _)
  · intro candidate hcandidate name hname
    have hnode : ¬ Tree.nodeKey = name := by
      rintro rfl
      exact absurd hname (by decide)
    rcases List.mem_pair.1 hcandidate with rfl | rfl
    · exact if_neg hnode
    · exact if_neg hnode

/-- Two trees that differ in a member named like the count are told apart, and a response lists both
with the same text. -/
theorem response_repeats_program :
    let request : Request := ⟨.empty, .object []⟩
    let first : Candidate := ⟨.single "A", .ofList [], 1⟩
    let second : Candidate := ⟨countingTree, .ofList [], 1⟩
    (drawingTwo [.single "A", countingTree]).generate request 0 =
        (.ok ⟨.object [], [first, second]⟩, 2) ∧
      first.same second = false ∧ first.toValue = second.toValue ∧
      Value.Equal first.program second.program := by
  intro request first second
  exact ⟨rfl, by decide, rfl, Value.Equal.refl first.program⟩

end Engine

end EvidenceSynthesis
