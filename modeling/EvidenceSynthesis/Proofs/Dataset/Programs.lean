import EvidenceSynthesis.Dataset.Extraction
import EvidenceSynthesis.Proofs.Evidence.Requests
import Mathlib

/-!
# Programs of a dataset

A dataset is accepted exactly if it lists programs, each of which lists sequences that list calls
(`Extraction.records_eq_ok_iff`).  What is read of a program, its members and the strings among its
calls, does not depend on the bounds, which only tell which programs are kept.

The evidence of a program is attached to its members by name.  Names that are there keep their
places, the others come behind, and no other member is touched (`Extraction.isAnnotated_attach`).
-/

namespace EvidenceSynthesis

open Json (Value Members)

/-! ### Members of an object -/

namespace Json

/-- A value is an object in which a name stands for an array. -/
def Value.Lists (value : Value) (key : String) (items : List Value) : Prop :=
  ∃ members, value = .object members ∧ Members.get? key members = some (.array items)

namespace Members

/-- Members that do not have the name of the one that is put are left as they are. -/
theorem filter_put (keep : String → Bool) {name : String} (hname : keep name = false)
    (value : Value) (members : Members) :
    (put name value members).filter (fun member => keep member.1) =
      members.filter fun member => keep member.1 := by
  induction members with
  | nil => simp [put, hname]
  | cons member rest ih =>
    by_cases hkey : member.1 = name
    · simp [put, hkey, hname]
    · simp only [put, if_neg hkey, List.filter_cons, ih]

/-- Nothing changes if a member is given the value that it has. -/
theorem put_of_get? {name : String} {value : Value} {members : Members}
    (h : get? name members = some value) : put name value members = members := by
  induction members with
  | nil => cases h
  | cons member rest ih =>
    obtain ⟨key, old⟩ := member
    by_cases hkey : key = name
    · rw [get?, if_pos hkey] at h
      rw [put, if_pos hkey, Option.some.inj h]
    · rw [get?, if_neg hkey] at h
      rw [put, if_neg hkey, ih h]

end Members

end Json

namespace Extraction

/-! ### What is accepted -/

theorem listed?_eq_some_iff {key : String} {value : Value} {items : List Value} :
    listed? key value = some items ↔ value.Lists key items := by
  rw [listed?, Option.bind_eq_some_iff]
  constructor
  · rintro ⟨member, hmember, hitems⟩
    cases value with
    | object members =>
      cases member with
      | array _ =>
        cases hitems
        exact ⟨members, rfl, hmember⟩
      | _ => cases hitems
    | _ => cases hmember
  · rintro ⟨members, rfl, hmember⟩
    exact ⟨.array items, hmember, rfl⟩

/-- A program is an object that lists sequences, each of which is an object that lists calls. -/
def IsProgram (program : Value) : Prop :=
  ∃ sequences, program.Lists sequencesKey sequences ∧
    ∀ sequence ∈ sequences, ∃ calls, sequence.Lists callsKey calls

/-- A dataset is an object that lists programs. -/
def IsDataset (dataset : Value) : Prop :=
  ∃ programs, dataset.Lists programsKey programs ∧ ∀ program ∈ programs, IsProgram program

/-! ### What is read -/

/-- The sequences of a program. -/
def sequencesOf (program : Value) : List Value :=
  (listed? sequencesKey program).getD []

/-- The calls of a sequence: the strings among the items that it lists. -/
def callsOf (sequence : Value) : List String :=
  ((listed? callsKey sequence).getD []).filterMap Value.text?

/-- A program yields a token of a kind if one of its calls does. -/
def Yields (program : Value) (kind : Kind) (token : String) : Prop :=
  ∃ sequence ∈ sequencesOf program, ∃ call ∈ callsOf sequence, token ∈ kind.extract call

/-- A program is within the bounds if it has not too many sequences and none of them too many
calls. -/
def IsKept (options : ExtractionOptions) (program : Value) : Prop :=
  (sequencesOf program).length ≤ options.maxSeqs ∧
    ∀ sequence ∈ sequencesOf program, (callsOf sequence).length ≤ options.maxSeqLength

instance (options : ExtractionOptions) : DecidablePred (IsKept options) := fun program =>
  inferInstanceAs (Decidable ((sequencesOf program).length ≤ options.maxSeqs ∧
    ∀ sequence ∈ sequencesOf program, (callsOf sequence).length ≤ options.maxSeqLength))

/-- The record of a program. -/
def recordIn (program : Value) : ProgramRecord :=
  ⟨program.members?.getD [], (sequencesOf program).map callsOf⟩

theorem sequencesOf_of_lists {program : Value} {sequences : List Value}
    (h : program.Lists sequencesKey sequences) : sequencesOf program = sequences := by
  rw [sequencesOf, listed?_eq_some_iff.2 h, Option.getD_some]

theorem IsProgram.eq_object {program : Value} (h : IsProgram program) :
    program = .object (recordIn program).members := by
  obtain ⟨_, ⟨members, rfl, -⟩, -⟩ := h
  rfl

/-- A sequence has calls exactly if it lists some items under the key. -/
theorem callsOf?_eq_some_iff {sequence : Value} {calls : List String} :
    callsOf? sequence = some calls ↔
      (∃ items, sequence.Lists callsKey items) ∧ callsOf sequence = calls := by
  rw [callsOf?, Option.map_eq_some_iff]
  simp only [listed?_eq_some_iff]
  constructor
  · rintro ⟨items, hitems, rfl⟩
    refine ⟨⟨items, hitems⟩, ?_⟩
    rw [callsOf, listed?_eq_some_iff.2 hitems, Option.getD_some]
  · rintro ⟨⟨items, hitems⟩, rfl⟩
    refine ⟨items, hitems, ?_⟩
    rw [callsOf, listed?_eq_some_iff.2 hitems, Option.getD_some]

theorem mapM_callsOf?_eq_some_iff {sequences : List Value} {calls : List (List String)} :
    sequences.mapM callsOf? = some calls ↔
      (∀ sequence ∈ sequences, ∃ items, sequence.Lists callsKey items) ∧
        calls = sequences.map callsOf := by
  induction sequences generalizing calls with
  | nil => simp [eq_comm]
  | cons sequence rest ih =>
    simp only [List.mapM_cons, Option.bind_eq_bind, Option.bind_eq_some_iff, Option.pure_def,
      Option.some.injEq, callsOf?_eq_some_iff, ih, List.forall_mem_cons, List.map_cons]
    constructor
    · rintro ⟨_, ⟨hfirst, rfl⟩, _, ⟨hrest, rfl⟩, rfl⟩
      exact ⟨⟨hfirst, hrest⟩, rfl⟩
    · rintro ⟨⟨hfirst, hrest⟩, rfl⟩
      exact ⟨_, ⟨hfirst, rfl⟩, _, ⟨hrest, rfl⟩, rfl⟩

/-- A record is read from a value exactly if the value is a program. -/
theorem recordOf_eq_ok_iff {index : Nat} {program : Value} {record : ProgramRecord} :
    recordOf index program = .ok record ↔ IsProgram program ∧ record = recordIn program := by
  constructor
  · intro h
    unfold recordOf at h
    split at h
    case h_2 => cases h
    case h_1 members hmembers =>
      split at h
      case h_2 => cases h
      case h_1 sequences hsequences =>
        split at h
        case h_2 => cases h
        case h_1 calls hcalls =>
          cases h
          rw [listed?_eq_some_iff] at hsequences
          obtain ⟨hlists, rfl⟩ := mapM_callsOf?_eq_some_iff.1 hcalls
          refine ⟨⟨sequences, hsequences, hlists⟩, ?_⟩
          rw [recordIn, hmembers, sequencesOf_of_lists hsequences, Option.getD_some]
  · rintro ⟨⟨sequences, hsequences, hlists⟩, rfl⟩
    have hcalls := mapM_callsOf?_eq_some_iff.2 ⟨hlists, rfl⟩
    have hlisted := listed?_eq_some_iff.2 hsequences
    rw [recordIn, sequencesOf_of_lists hsequences]
    obtain ⟨members, rfl, -⟩ := hsequences
    simp only [recordOf, hlisted, hcalls]
    rfl

/-- Records are made exactly of programs, one for each. -/
theorem recordsFrom_eq_ok_iff {index : Nat} {programs : List Value}
    {records : List ProgramRecord} :
    recordsFrom index programs = .ok records ↔
      (∀ program ∈ programs, IsProgram program) ∧ records = programs.map recordIn := by
  induction programs generalizing index records with
  | nil => simp [recordsFrom, eq_comm]
  | cons program rest ih =>
    rw [recordsFrom, bind_eq_ok_iff, List.forall_mem_cons, List.map_cons]
    constructor
    · rintro ⟨first, hfirst, h⟩
      obtain ⟨others, hothers, h⟩ := bind_eq_ok_iff.1 h
      cases h
      obtain ⟨hprogram, rfl⟩ := recordOf_eq_ok_iff.1 hfirst
      obtain ⟨hrest, rfl⟩ := ih.1 hothers
      exact ⟨⟨hprogram, hrest⟩, rfl⟩
    · rintro ⟨⟨hprogram, hrest⟩, rfl⟩
      exact ⟨_, recordOf_eq_ok_iff.2 ⟨hprogram, rfl⟩,
        bind_eq_ok_iff.2 ⟨_, ih.2 ⟨hrest, rfl⟩, rfl⟩⟩

/-- The records of a dataset are those of its programs. -/
theorem records_eq_ok_iff {dataset : Value} {found : List ProgramRecord} :
    records dataset = .ok found ↔
      ∃ programs, dataset.Lists programsKey programs ∧
        (∀ program ∈ programs, IsProgram program) ∧ found = programs.map recordIn := by
  simp only [records, ← listed?_eq_some_iff]
  cases listed? programsKey dataset with
  | none => exact iff_of_false nofun fun ⟨_, h, _⟩ => nomatch h
  | some programs =>
    refine recordsFrom_eq_ok_iff.trans ⟨fun h => ⟨programs, rfl, h⟩, ?_⟩
    rintro ⟨_, ⟨⟩, h⟩
    exact h

theorem isWithin_recordIn {options : ExtractionOptions} {program : Value} :
    isWithin options (recordIn program) = true ↔ IsKept options program := by
  simp [isWithin, recordIn, IsKept]

/-- The evidence of a record is what its program yields. -/
theorem mem_evidenceOf_recordIn {program : Value} {kind : Kind} {token : String} :
    token ∈ (evidenceOf (recordIn program)).get kind ↔ Yields program kind token := by
  simp only [evidenceOf, Evidence.mem_ofCalls, recordIn, Yields, List.mem_flatten, List.mem_map]
  constructor
  · rintro ⟨call, ⟨_, ⟨sequence, hsequence, rfl⟩, hcall⟩, htoken⟩
    exact ⟨sequence, hsequence, call, hcall, htoken⟩
  · rintro ⟨sequence, hsequence, call, hcall, htoken⟩
    exact ⟨call, ⟨_, ⟨sequence, hsequence, rfl⟩, hcall⟩, htoken⟩

/-! ### What is attached -/

/-- Whether a name is that of a kind. -/
def isKindName (name : String) : Bool :=
  (Kind.ofName? name).isSome

/-- Members with a list of tokens under the name of each kind.  Names that are there already keep
their places, the others come behind in the order of the kinds, and all other members are the same
ones. -/
structure IsAnnotated (tokens : Kind → List String) (members annotated : Members) : Prop where
  names_eq : annotated.names =
    members.names ++ (Kind.all.map Kind.name).filter fun name => name ∉ members.names
  others_eq : (annotated.filter fun member => !isKindName member.1) =
    members.filter fun member => !isKindName member.1
  get?_name : ∀ kind : Kind, annotated.get? kind.name = some (.ofTexts (tokens kind))

/-- A record is a program to which tokens of each kind are attached. -/
def Annotates (tokens : Kind → List String) (program record : Value) : Prop :=
  ∃ members annotated, program = .object members ∧ record = .object annotated ∧
    IsAnnotated tokens members annotated

theorem isKindName_name (kind : Kind) : isKindName kind.name = true := by
  cases kind <;> rfl

/-- Puts a list of tokens under the name of each of some kinds. -/
def attachKinds (evidence : Evidence) (kinds : List Kind) (members : Members) : Members :=
  kinds.foldl (fun members kind => members.put kind.name (.ofTexts (evidence.get kind).toList))
    members

theorem attach_eq (evidence : Evidence) (members : Members) :
    attach evidence members = attachKinds evidence Kind.all members := rfl

section

variable {evidence : Evidence} {kinds : List Kind} {members : Members}

theorem attachKinds_cons (kind : Kind) :
    attachKinds evidence (kind :: kinds) members =
      attachKinds evidence kinds
        (members.put kind.name (.ofTexts (evidence.get kind).toList)) := rfl

/-- Attaching adds the names of the kinds that are not there yet, in order. -/
theorem names_attachKinds (hkinds : kinds.Nodup) :
    (attachKinds evidence kinds members).names =
      members.names ++ (kinds.map Kind.name).filter fun name => name ∉ members.names := by
  induction kinds generalizing members with
  | nil => simp [attachKinds]
  | cons kind rest ih =>
    obtain ⟨hkind, hrest⟩ := List.nodup_cons.1 hkinds
    rw [attachKinds_cons, ih hrest, Members.names_put, List.map_cons]
    by_cases hname : kind.name ∈ members.names
    · simp [hname]
    · -- the name that was put is none of the others, so that these are left out as before
      have hothers : ∀ name ∈ rest.map Kind.name, name ≠ kind.name := by
        intro name hmem heq
        obtain ⟨other, hother, rfl⟩ := List.mem_map.1 hmem
        exact hkind (Kind.name_injective heq ▸ hother)
      have hsame : ∀ name ∈ rest.map Kind.name,
          decide (name ∉ members.names ++ [kind.name]) = decide (name ∉ members.names) := by
        intro name hmem
        simp [hothers name hmem]
      rw [if_neg hname, List.filter_congr hsame]
      simp [hname]

/-- Attaching leaves the members that are no kinds. -/
theorem others_attachKinds :
    (attachKinds evidence kinds members).filter (fun member => !isKindName member.1) =
      members.filter fun member => !isKindName member.1 := by
  induction kinds generalizing members with
  | nil => rfl
  | cons kind rest ih =>
    have hname : (!isKindName kind.name) = false := by rw [isKindName_name, Bool.not_true]
    rw [attachKinds_cons, ih, Members.filter_put (fun name => !isKindName name) hname]

theorem get?_attachKinds_of_ne {name : String} (hname : ∀ kind ∈ kinds, name ≠ kind.name) :
    (attachKinds evidence kinds members).get? name = members.get? name := by
  induction kinds generalizing members with
  | nil => rfl
  | cons kind rest ih =>
    obtain ⟨hkind, hrest⟩ := List.forall_mem_cons.1 hname
    rw [attachKinds_cons, ih hrest, Members.get?_put_of_ne hkind]

/-- An attached kind is found with its tokens. -/
theorem get?_attachKinds {kind : Kind} (hkind : kind ∈ kinds) :
    (attachKinds evidence kinds members).get? kind.name =
      some (.ofTexts (evidence.get kind).toList) := by
  induction kinds generalizing members with
  | nil => cases hkind
  | cons first rest ih =>
    rw [attachKinds_cons]
    by_cases hrest : kind ∈ rest
    · exact ih hrest
    · obtain rfl := (List.mem_cons.1 hkind).resolve_right hrest
      have hothers : ∀ other ∈ rest, kind.name ≠ other.name := by
        rintro other hother heq
        exact hrest (Kind.name_injective heq ▸ hother)
      rw [get?_attachKinds_of_ne hothers, Members.get?_put_self]

/-- Where the tokens are attached already, attaching them changes nothing. -/
theorem attachKinds_of_get? (h : ∀ kind ∈ kinds,
    members.get? kind.name = some (.ofTexts (evidence.get kind).toList)) :
    attachKinds evidence kinds members = members := by
  induction kinds with
  | nil => rfl
  | cons kind rest ih =>
    obtain ⟨hkind, hrest⟩ := List.forall_mem_cons.1 h
    rw [attachKinds_cons, Members.put_of_get? hkind, ih hrest]

end

/-- The members to which evidence is attached have its tokens under the names of the kinds. -/
theorem isAnnotated_attach (evidence : Evidence) (members : Members) :
    IsAnnotated (fun kind => (evidence.get kind).toList) members (attach evidence members) where
  names_eq := names_attachKinds (by decide)
  others_eq := others_attachKinds
  get?_name kind := get?_attachKinds kind.mem_all

/-- Attaching evidence once more changes nothing. -/
theorem attach_attach (evidence : Evidence) (members : Members) :
    attach evidence (attach evidence members) = attach evidence members :=
  attachKinds_of_get? fun kind _ => (isAnnotated_attach evidence members).get?_name kind

/-- Attaching evidence annotates the program with it. -/
theorem annotates_attach {program : Value} (h : IsProgram program) (evidence : Evidence) :
    Annotates (fun kind => (evidence.get kind).toList) program
      (.object (attach evidence (recordIn program).members)) :=
  ⟨_, _, h.eq_object, rfl, isAnnotated_attach evidence _⟩

/-- A program to which evidence is attached has the sequences that it had. -/
theorem listed?_attach (evidence : Evidence) (members : Members) :
    listed? sequencesKey (.object (attach evidence members)) =
      listed? sequencesKey (.object members) := by
  have hname : ∀ kind ∈ Kind.all, sequencesKey ≠ kind.name := by decide
  simp only [listed?, Value.member?, attach_eq, get?_attachKinds_of_ne hname]

end Extraction

end EvidenceSynthesis
