import EvidenceSynthesis.Proofs.Dataset.Programs
import Mathlib

/-!
# Evidence that is attached in full

Evidence is attached to the programs of a dataset that are within the bounds.  Each of them gives a
block of records, and the blocks follow each other as the programs do
(`Extraction.exists_blocks_extract`).  Whether there is a result depends on the dataset alone: every
program has to be well formed, also one that the bounds leave out.

Where evidence is attached in full, every block is one record, which holds the tokens that the
program yields (`Extraction.extract_full`).  The calls are left as they are, so that attaching
evidence to the result gives the result again (`Extraction.extract_again`).
-/

namespace EvidenceSynthesis

open Json (Value Members)

namespace Extraction

variable {ρ : Type} {source : SubsetSource ρ} {options : ExtractionOptions} {dataset : Value}
  {programs : List Value} {state : ρ}

/-! ### Blocks of records -/

/-- The records that result are blocks, one for each record within the bounds. -/
theorem exists_blocks_results (source : SubsetSource ρ) (options : ExtractionOptions)
    (records : List ProgramRecord) (state : ρ) :
    ∃ blocks : List (List Members), (results source options records state).1 = blocks.flatten ∧
      List.Forall₂ (fun record block => ∃ state,
          block = (partsOf source options record state).1.map (attach · record.members))
        (records.filter (isWithin options)) blocks := by
  induction records generalizing state with
  | nil => exact ⟨[], rfl, .nil⟩
  | cons record rest ih =>
    by_cases hwithin : isWithin options record = true
    · let block := (partsOf source options record state).1.map (attach · record.members)
      obtain ⟨blocks, hresults, hblocks⟩ := ih (partsOf source options record state).2
      refine ⟨block :: blocks, ?_, ?_⟩
      · rw [results, if_pos hwithin, List.flatten_cons, ← hresults]
      · rw [List.filter_cons_of_pos hwithin]
        exact .cons ⟨state, rfl⟩ hblocks
    · obtain ⟨blocks, hresults, hblocks⟩ := ih state
      rw [results, if_neg hwithin, List.filter_cons_of_neg hwithin]
      exact ⟨blocks, hresults, hblocks⟩

/-- The records within the limits are those of the kept programs. -/
theorem filter_isWithin (options : ExtractionOptions) (programs : List Value) :
    (programs.map recordIn).filter (isWithin options) =
      (programs.filter fun program => IsKept options program).map recordIn := by
  rw [List.filter_map]
  refine congrArg (List.map recordIn) (List.filter_congr fun program _ => ?_)
  rw [Function.comp_apply, Bool.eq_iff_iff, isWithin_recordIn, decide_eq_true_iff]

/-- Evidence is attached if the dataset lists programs and nothing else. -/
theorem extract_eq_ok_iff {output : Value} :
    extract source options dataset state = .ok output ↔
      ∃ programs, dataset.Lists programsKey programs ∧ (∀ program ∈ programs, IsProgram program) ∧
        output = .object [(programsKey,
          .array ((results source options (programs.map recordIn) state).1.map .object))] := by
  rw [extract]
  constructor
  · intro h
    cases hrecords : records dataset with
    | error error =>
      rw [hrecords] at h
      cases h
    | ok found =>
      rw [hrecords] at h
      cases h
      obtain ⟨programs, hlists, hprograms, rfl⟩ := records_eq_ok_iff.1 hrecords
      exact ⟨programs, hlists, hprograms, rfl⟩
  · rintro ⟨programs, hlists, hprograms, rfl⟩
    rw [records_eq_ok_iff.2 ⟨programs, hlists, hprograms, rfl⟩]
    rfl

/-- The extraction fails exactly if the input is no data set. -/
theorem exists_extract_eq_error_iff :
    (∃ error, extract source options dataset state = .error error) ↔ ¬ IsDataset dataset := by
  cases h : extract source options dataset state with
  | error error =>
    refine iff_of_true ⟨error, rfl⟩ ?_
    rintro ⟨programs, hlists, hprograms⟩
    rw [extract_eq_ok_iff.2 ⟨programs, hlists, hprograms, rfl⟩] at h
    cases h
  | ok output =>
    obtain ⟨programs, hlists, hprograms, -⟩ := extract_eq_ok_iff.1 h
    exact iff_of_false nofun fun hno => hno ⟨programs, hlists, hprograms⟩

/-- The result is made of blocks, one for each program within the bounds, in the same order. -/
theorem exists_blocks_extract (source : SubsetSource ρ) (options : ExtractionOptions) (state : ρ)
    (hlists : dataset.Lists programsKey programs)
    (hprograms : ∀ program ∈ programs, IsProgram program) :
    ∃ blocks : List (List Value),
      extract source options dataset state = .ok (.object [(programsKey, .array blocks.flatten)]) ∧
      List.Forall₂ (fun program block => ∃ state,
          block = (partsOf source options (recordIn program) state).1.map fun part =>
            .object (attach part (recordIn program).members))
        (programs.filter fun program => IsKept options program) blocks := by
  obtain ⟨blocks, hresults, hblocks⟩ :=
    exists_blocks_results source options (programs.map recordIn) state
  refine ⟨blocks.map (List.map .object), ?_, ?_⟩
  · refine extract_eq_ok_iff.2 ⟨programs, hlists, hprograms, ?_⟩
    rw [hresults, List.map_flatten]
  · rw [filter_isWithin, List.forall₂_map_left_iff] at hblocks
    rw [List.forall₂_map_right_iff]
    refine hblocks.imp ?_
    rintro program block ⟨state, rfl⟩
    exact ⟨state, by rw [List.map_map]; rfl⟩

/-! ### One record for each program -/

/-- A program with all of its evidence. -/
def annotated (program : Value) : Value :=
  .object (attach (evidenceOf (recordIn program)) (recordIn program).members)

/-- Every program within the bounds gives one record. -/
theorem extract_eq_annotated (source : SubsetSource ρ) (hfull : options.numSamples = 0) (state : ρ)
    (hlists : dataset.Lists programsKey programs)
    (hprograms : ∀ program ∈ programs, IsProgram program) :
    extract source options dataset state = .ok (.object [(programsKey,
      .array ((programs.filter fun program => IsKept options program).map annotated))]) := by
  obtain ⟨blocks, hextract, hblocks⟩ :=
    exists_blocks_extract source options state hlists hprograms
  have hsingle : blocks =
      (programs.filter fun program => IsKept options program).map fun program =>
        [annotated program] := by
    rw [eq_comm, ← List.forall₂_eq_eq_eq, List.forall₂_map_left_iff]
    refine hblocks.imp ?_
    rintro program block ⟨state, rfl⟩
    rw [partsOf, if_pos hfull]
    rfl
  rw [hextract, hsingle, ← List.flatMap_def, ← List.map_eq_flatMap]

/-- Attaching evidence in full.

It fails exactly if the value is no object that lists programs, or one of them, within the bounds or
not, is no object that lists sequences each of which is an object that lists calls.

Otherwise the result lists one record for each program within the bounds, in their order.  A record
is the program with three lists of tokens, each in its old place or behind the other members, and
with no other change; the list of a kind holds in increasing order the tokens of that kind which the
calls of the program yield. -/
theorem extract_full (source : SubsetSource ρ) (hfull : options.numSamples = 0) (dataset : Value)
    (state : ρ) :
    ((∃ error, extract source options dataset state = .error error) ↔ ¬ IsDataset dataset) ∧
    ∀ programs, dataset.Lists programsKey programs → (∀ program ∈ programs, IsProgram program) →
      ∃ records, extract source options dataset state =
          .ok (.object [(programsKey, .array records)]) ∧
        List.Forall₂ (fun program record => ∃ tokens : Kind → List String,
            Annotates tokens program record ∧
            ∀ kind, (tokens kind).Pairwise (· < ·) ∧
              ∀ token, token ∈ tokens kind ↔ Yields program kind token)
          (programs.filter fun program => IsKept options program) records := by
  refine ⟨exists_extract_eq_error_iff, fun programs hlists hprograms =>
    ⟨_, extract_eq_annotated source hfull state hlists hprograms, ?_⟩⟩
  rw [List.forall₂_map_right_iff, List.forall₂_same]
  intro program hmem
  have hprogram := hprograms program (List.mem_of_mem_filter hmem)
  refine ⟨_, annotates_attach hprogram _, fun kind => ⟨TokenSet.sorted _, fun token => ?_⟩⟩
  exact mem_evidenceOf_recordIn

/-- Of two programs one has too many sequences.  The other one keeps a list that is no list of texts
in its place, where the tokens then stand. -/
theorem extract_full_two :
    let sequence : Value :=
      .object [("calls", .array [.integer 1, .string "util.List.add(Object)"])]
    let small : Value := .object [("types", .null), ("sequences", .array [sequence])]
    let large : Value := .object [("sequences", .array [sequence, sequence])]
    let dataset : Value := .object [("programs", .array [large, small])]
    let options : ExtractionOptions := ⟨1, 1, 0⟩
    options.numSamples = 0 ∧ dataset.Lists programsKey [large, small] ∧
      (∀ program ∈ [large, small], IsProgram program) ∧
      ∃ record tokens, extract randomSubsets options dataset (.ofSeed 0) =
          .ok (.object [("programs", .array [record])]) ∧
        Annotates tokens small record ∧ "List" ∈ tokens .types := by
  intro sequence small large dataset options
  have hlists : dataset.Lists programsKey [large, small] := ⟨_, rfl, rfl⟩
  have hsequence : ∃ calls, sequence.Lists callsKey calls := ⟨_, _, rfl, rfl⟩
  have hprograms : ∀ program ∈ [large, small], IsProgram program := by
    refine List.forall_mem_cons.2 ⟨⟨[sequence, sequence], ⟨_, rfl, rfl⟩, ?_⟩,
      List.forall_mem_cons.2 ⟨⟨[sequence], ⟨_, rfl, rfl⟩, ?_⟩, nofun⟩⟩
    · simpa using hsequence
    · simpa using hsequence
  have hfull : options.numSamples = 0 := rfl
  obtain ⟨records, hextract, hrecords⟩ :=
    (extract_full randomSubsets hfull dataset (.ofSeed 0)).2 _ hlists hprograms
  have hkept : [large, small].filter (fun program => IsKept options program) = [small] := by cbv
  rw [hkept] at hrecords
  obtain ⟨record, _, ⟨tokens, hannotates, htokens⟩, hnil, rfl⟩ :=
    List.forall₂_cons_left_iff.1 hrecords
  obtain rfl := List.forall₂_nil_left_iff.1 hnil
  have hsequences : sequencesOf small = [sequence] := by cbv
  have hcalls : callsOf sequence = ["util.List.add(Object)"] := by cbv
  have htypes : Kind.types.extract "util.List.add(Object)" = ["List"] := by cbv
  have hyields : Yields small .types "List" := by
    refine ⟨sequence, ?_, "util.List.add(Object)", ?_, ?_⟩
    · simp [hsequences]
    · simp [hcalls]
    · simp [htypes]
  exact ⟨rfl, hlists, hprograms, record, tokens, hextract, hannotates,
    ((htokens .types).2 "List").2 hyields⟩

/-! ### Attaching again -/

theorem sequencesOf_annotated {program : Value} (h : IsProgram program) :
    sequencesOf (annotated program) = sequencesOf program := by
  rw [sequencesOf, annotated, listed?_attach, ← h.eq_object, sequencesOf]

theorem IsProgram.annotated {program : Value} (h : IsProgram program) :
    IsProgram (annotated program) := by
  have heq := h.eq_object
  obtain ⟨sequences, hsequences, hcalls⟩ := h
  refine ⟨sequences, ?_, hcalls⟩
  rw [← listed?_eq_some_iff, Extraction.annotated, listed?_attach, ← heq, listed?_eq_some_iff]
  exact hsequences

/-- An annotated program is kept exactly if the program is. -/
theorem isKept_annotated {program : Value} (h : IsProgram program) :
    IsKept options (annotated program) ↔ IsKept options program := by
  rw [IsKept, sequencesOf_annotated h, IsKept]

/-- A program with all of its evidence yields what it yielded, so that it is its own record. -/
theorem annotated_annotated {program : Value} (h : IsProgram program) :
    annotated (annotated program) = annotated program := by
  have hevidence : evidenceOf (recordIn (annotated program)) = evidenceOf (recordIn program) := by
    rw [evidenceOf, evidenceOf, recordIn, recordIn, sequencesOf_annotated h]
  rw [annotated, hevidence, annotated]
  exact congrArg Value.object (attach_attach _ _)

/-- Attaching evidence in full to what results gives what resulted, whatever stood under the names
of the kinds before. -/
theorem extract_again (hfull : options.numSamples = 0) {output : Value}
    (h : extract source options dataset state = .ok output) {ρ' : Type} (other : SubsetSource ρ')
    (later : ρ') : extract other options output later = .ok output := by
  obtain ⟨programs, hlists, hprograms, -⟩ := extract_eq_ok_iff.1 h
  rw [extract_eq_annotated source hfull state hlists hprograms, Except.ok.injEq] at h
  subst h
  have hkept : ∀ program ∈ programs.filter fun program => IsKept options program,
      IsProgram program ∧ IsKept options program := by
    intro program hmem
    obtain ⟨hmem, hwithin⟩ := List.mem_filter.1 hmem
    exact ⟨hprograms program hmem, of_decide_eq_true hwithin⟩
  generalize programs.filter (fun program => IsKept options program) = kept at hkept
  have hrecords : ∀ record ∈ kept.map annotated, IsProgram record ∧ IsKept options record := by
    intro record hrecord
    obtain ⟨program, hmem, rfl⟩ := List.mem_map.1 hrecord
    obtain ⟨hprogram, hwithin⟩ := hkept program hmem
    exact ⟨hprogram.annotated, (isKept_annotated hprogram).2 hwithin⟩
  have hall : (kept.map annotated).filter (fun record => IsKept options record) =
      kept.map annotated :=
    List.filter_eq_self.2 fun record hrecord => decide_eq_true (hrecords record hrecord).2
  have hagain : (kept.map annotated).map annotated = kept.map annotated := by
    rw [List.map_map]
    exact List.map_congr_left fun program hmem => annotated_annotated (hkept program hmem).1
  rw [extract_eq_annotated other hfull later ⟨_, rfl, rfl⟩ fun record hrecord =>
    (hrecords record hrecord).1, hall, hagain]

/-- A program has a number where its tokens are attached, and keeps the place when they are attached
again. -/
theorem extract_again_replaced :
    let sequences : Value := .array [.object [("calls", .ofTexts ["A.b()"])]]
    let dataset : Value := .object
      [("programs", .array [.object [("types", .integer 5), ("sequences", sequences)]])]
    let output : Value := .object [("programs", .array [.object [("types", .ofTexts ["A"]),
      ("sequences", sequences), ("apicalls", .ofTexts ["b"]), ("context", .ofTexts [])]])]
    ExtractionOptions.standard.numSamples = 0 ∧
      extract randomSubsets .standard dataset (.ofSeed 0) = .ok output ∧
      extract randomSubsets .standard output (.ofSeed 1) = .ok output := by
  intro sequences dataset output
  have hextract : extract randomSubsets .standard dataset (.ofSeed 0) = .ok output := by cbv
  exact ⟨rfl, hextract, extract_again rfl hextract randomSubsets (.ofSeed 1)⟩

end Extraction

end EvidenceSynthesis
