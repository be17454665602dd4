import EvidenceSynthesis.Proofs.Dataset.FullEvidence
import EvidenceSynthesis.Proofs.Evidence.Coverage
import EvidenceSynthesis.Proofs.Model.Weights
import EvidenceSynthesis.Proofs.Random.Subsets
import Mathlib

/-!
# Evidence that is attached in parts

Instead of all its evidence, a program may be given several random parts of it, each in a record of
its own.  Whatever a lawful source chooses, a part is below the evidence of the program
(`Extraction.sample_le`), and parts without any token are left out (`Extraction.samples_spec`).  A
program that yields no token is thus left out altogether.

A part has just the tokens that the source chooses for it (`Extraction.mem_get_partAfter`), and the
records of a program hold the parts with tokens in the order in which they are chosen
(`Extraction.extract_eq_recordsOfPrograms`).

A record lists the tokens of each kind in increasing order and once, so that an encoder reads from
it just what was attached (`Extraction.dataPoint_of_annotates`).
-/

namespace EvidenceSynthesis

open Json (Value Members)

namespace Evidence

/-- Evidence that is not empty has a token of some kind. -/
theorem isEmpty_eq_false_iff {evidence : Evidence} :
    evidence.isEmpty = false ↔ ∃ kind token, token ∈ evidence.get kind := by
  rw [isEmpty, List.all_eq_false]
  simp only [TokenSet.isEmpty, List.isEmpty_iff]
  constructor
  · rintro ⟨kind, -, hkind⟩
    obtain ⟨token, htoken⟩ := List.exists_mem_of_ne_nil _ hkind
    exact ⟨kind, token, htoken⟩
  · rintro ⟨kind, token, htoken⟩
    exact ⟨kind, kind.mem_all, List.ne_nil_of_mem htoken⟩

/-- Tokens of a greater evidence can be added to a part of it. -/
theorem add_le {part full : Evidence} (hpart : part ≤ full) {kind : Kind} {tokens : List String}
    (htokens : ∀ token ∈ tokens, token ∈ full.get kind) : part.add kind tokens ≤ full := by
  intro k token htoken
  rcases mem_get_add.1 htoken with hold | ⟨rfl, hnew⟩
  · exact hpart k token hold
  · exact htokens token hnew

theorem empty_le (evidence : Evidence) : empty ≤ evidence := by
  intro kind token htoken
  simp [empty] at htoken

end Evidence

/-! ### Lists without repetition -/

theorem eraseDups_of_nodup {tokens : List String} (h : tokens.Nodup) :
    tokens.eraseDups = tokens := by
  induction tokens with
  | nil => rfl
  | cons token rest ih =>
    obtain ⟨habsent, hrest⟩ := List.nodup_cons.1 h
    have hothers : ∀ other ∈ rest, (!other == token) = true := by
      intro other hother
      simpa using ne_of_mem_of_not_mem hother habsent
    rw [List.eraseDups_cons, List.filter_eq_self.2 hothers, ih hrest]

namespace Extraction

variable {ρ : Type} {source : SubsetSource ρ} {options : ExtractionOptions}

/-! ### Parts of evidence -/

section

variable (hsource : source.IsLawful)

include hsource

/-- What is added to a part is chosen from the tokens of the full evidence. -/
theorem sampleKinds_le {full part : Evidence} (hpart : part ≤ full) (kinds : List Kind)
    (state : ρ) : (sampleKinds source full part kinds state).1 ≤ full := by
  induction kinds generalizing part state with
  | nil => exact hpart
  | cons kind rest ih =>
    rcases hsize : source.size (full.get kind).toList.length state with ⟨size, next⟩
    rcases hchoose : source.choose size (full.get kind).toList next with ⟨chosen, last⟩
    have hbound := hsource.size_le (full.get kind).toList.length state
    have hchosen := hsource.choose_subperm size (full.get kind).toList next
    rw [hsize] at hbound
    rw [hchoose] at hchosen
    have hsubset := (hchosen hbound (full.get kind).nodup_toList).subset
    simp only [sampleKinds, hsize, hchoose]
    exact ih (Evidence.add_le hpart fun token htoken => hsubset htoken) last

theorem sample_le (full : Evidence) (state : ρ) : (sample source full state).1 ≤ full :=
  sampleKinds_le hsource full.empty_le Kind.all state

/-- At most as many parts are given as were asked for, and each of them has some of the tokens. -/
theorem samples_spec (full : Evidence) (count : Nat) (state : ρ) :
    (samples source full count state).1.length ≤ count ∧
      ∀ part ∈ (samples source full count state).1, part ≤ full ∧ part.isEmpty = false := by
  induction count generalizing state with
  | zero => exact ⟨Nat.le_refl 0, nofun⟩
  | succ count ih =>
    rcases hsample : sample source full state with ⟨first, next⟩
    obtain ⟨hlength, hothers⟩ := ih next
    have hfirst := sample_le hsource full state
    rw [hsample] at hfirst
    simp only [samples, hsample]
    cases hempty : first.isEmpty with
    | true => exact ⟨Nat.le_succ_of_le hlength, hothers⟩
    | false =>
      exact ⟨Nat.succ_le_succ hlength, List.forall_mem_cons.2 ⟨⟨hfirst, hempty⟩, hothers⟩⟩

/-- The parts that are attached to a record are parts of its evidence.  If they are random, they are
at most as many as were asked for, and none of them is empty. -/
theorem partsOf_spec (options : ExtractionOptions) (record : ProgramRecord) (state : ρ) :
    (∀ part ∈ (partsOf source options record state).1, part ≤ evidenceOf record) ∧
      (options.numSamples ≠ 0 →
        (partsOf source options record state).1.length ≤ options.numSamples ∧
          ∀ part ∈ (partsOf source options record state).1, part.isEmpty = false) := by
  by_cases hfull : options.numSamples = 0
  · rw [partsOf, if_pos hfull]
    refine ⟨fun part hpart => ?_, fun hno => absurd hfull hno⟩
    rw [List.mem_singleton.1 hpart]
  · rw [partsOf, if_neg hfull]
    have h := samples_spec hsource (evidenceOf record) options.numSamples state
    exact ⟨fun part hpart => (h.2 part hpart).1,
      fun _ => ⟨h.1, fun part hpart => (h.2 part hpart).2⟩⟩

end

/-! ### Parts in the order in which they are chosen -/

/-- The state of a source after it has chosen a number of parts of evidence. -/
def stateAfterParts (source : SubsetSource ρ) (full : Evidence) (state : ρ) : Nat → ρ
  | 0 => state
  | n + 1 => stateAfterParts source full (sample source full state).2 n

/-- The part of evidence that is chosen after `n` others. -/
def partAfter (source : SubsetSource ρ) (full : Evidence) (state : ρ) (n : Nat) : Evidence :=
  (sample source full (stateAfterParts source full state n)).1

/-- What a source chooses of the tokens of a kind, where it chooses for the listed kinds in turn. -/
def chosen (source : SubsetSource ρ) (full : Evidence) (kind : Kind) : List Kind → ρ → List String
  | [], _ => []
  | k :: rest, state =>
    let tokens := (full.get k).toList
    let (size, state) := source.size tokens.length state
    let (items, state) := source.choose size tokens state
    (if kind = k then items else []) ++ chosen source full kind rest state

/-- A sampled part grows by what was chosen for each kind. -/
theorem mem_get_sampleKinds {full part : Evidence} {kind : Kind} {token : String}
    (kinds : List Kind) (state : ρ) :
    token ∈ (sampleKinds source full part kinds state).1.get kind ↔
      token ∈ part.get kind ∨ token ∈ chosen source full kind kinds state := by
  induction kinds generalizing part state with
  | nil => simp [sampleKinds, chosen]
  | cons k rest ih =>
    simp only [sampleKinds, chosen, ih, Evidence.mem_get_add, List.mem_append, or_assoc]
    by_cases hkind : kind = k
    · simp only [hkind, true_and, if_true]
    · simp only [hkind, false_and, if_false, List.not_mem_nil]

/-- A part has just the tokens that the source chooses for it. -/
theorem mem_get_partAfter {full : Evidence} {kind : Kind} {token : String} {state : ρ} {n : Nat} :
    token ∈ (partAfter source full state n).get kind ↔
      token ∈ chosen source full kind Kind.all (stateAfterParts source full state n) := by
  have hnone : token ∉ Evidence.empty.get kind := by simp [Evidence.empty]
  rw [partAfter, sample, mem_get_sampleKinds, or_iff_right hnone]

/-- The parts that are given are those with tokens, in the order in which they are chosen. -/
theorem samples_eq (source : SubsetSource ρ) (full : Evidence) (count : Nat) (state : ρ) :
    samples source full count state =
      (((List.range count).map (partAfter source full state)).filter fun part => !part.isEmpty,
        stateAfterParts source full state count) := by
  induction count generalizing state with
  | zero => rfl
  | succ count ih =>
    have hfirst : partAfter source full state 0 = (sample source full state).1 := rfl
    have hothers : ∀ n, partAfter source full state (n + 1) =
        partAfter source full (sample source full state).2 n := fun _ => rfl
    simp only [samples, ih]
    rw [List.range_succ_eq_map, List.map_cons, List.map_map, List.filter_cons, hfirst]
    simp only [Function.comp_def, hothers, stateAfterParts]
    cases (sample source full state).1.isEmpty <;> rfl

/-- The records of a program, one for each part with tokens, where the source is in a state at
first. -/
def recordsOfParts (source : SubsetSource ρ) (count : Nat) (program : Value) (state : ρ) :
    List Value :=
  (((List.range count).map (partAfter source (evidenceOf (recordIn program)) state)).filter
    fun part => !part.isEmpty).map fun part => .object (attach part (recordIn program).members)

/-- The records of programs, where the source goes on with each of them from where it is. -/
def recordsOfPrograms (source : SubsetSource ρ) (count : Nat) : List Value → ρ → List Value
  | [], _ => []
  | program :: rest, state =>
    recordsOfParts source count program state ++
      recordsOfPrograms source count rest
        (stateAfterParts source (evidenceOf (recordIn program)) state count)

/-- The records of a program hold the parts with tokens in the order in which they are chosen. -/
theorem getElem?_recordsOfParts (source : SubsetSource ρ) (count : Nat) (program : Value)
    (state : ρ) (n : Nat) :
    (recordsOfParts source count program state)[n]? =
      ((((List.range count).map (partAfter source (evidenceOf (recordIn program)) state)).filter
        fun part => !part.isEmpty)[n]?).map fun part =>
          .object (attach part (recordIn program).members) :=
  List.getElem?_map

/-- Where evidence is attached in parts, the result has the records of the programs within the
bounds, one after another. -/
theorem extract_eq_recordsOfPrograms (source : SubsetSource ρ) (options : ExtractionOptions)
    (state : ρ) (hno : options.numSamples ≠ 0) {dataset : Value} {programs : List Value}
    (hlists : dataset.Lists programsKey programs)
    (hprograms : ∀ program ∈ programs, IsProgram program) :
    extract source options dataset state = .ok (.object [(programsKey, .array
      (recordsOfPrograms source options.numSamples
        (programs.filter fun program => IsKept options program) state))]) := by
  have hresults : ∀ programs : List Value, ∀ state,
      (results source options (programs.map recordIn) state).1.map .object =
        recordsOfPrograms source options.numSamples
          (programs.filter fun program => IsKept options program) state := by
    intro programs
    induction programs with
    | nil => exact fun _ => rfl
    | cons program rest ih =>
      intro state
      rw [List.map_cons]
      by_cases hkept : IsKept options program
      · rw [List.filter_cons, if_pos (decide_eq_true hkept), recordsOfPrograms, ← ih, results,
          if_pos (isWithin_recordIn.2 hkept), partsOf, if_neg hno, samples_eq, List.map_append,
          List.map_map]
        rfl
      · rw [List.filter_cons, if_neg (mt of_decide_eq_true hkept), ← ih, results,
          if_neg (mt isWithin_recordIn.1 hkept)]
  exact extract_eq_ok_iff.2 ⟨programs, hlists, hprograms, by rw [hresults]⟩

/-! ### What is read of a record -/

/-- An encoder reads from a record the tokens that were attached, if none of them occurs twice. -/
theorem dataPoint_of_annotates {tokens : Kind → List String} {program record : Value}
    (h : Annotates tokens program record) (encoder : Encoder)
    (hnodup : (tokens encoder.kind).Nodup) : encoder.dataPoint record = tokens encoder.kind := by
  obtain ⟨_, annotated, -, rfl, hannotated⟩ := h
  have hitems : ((Value.object annotated).member? encoder.kind.name).bind Value.items? =
      some ((tokens encoder.kind).map .string) := by
    rw [Value.member?, hannotated.get?_name encoder.kind]
    rfl
  have htexts : ((tokens encoder.kind).map Value.string).filterMap Value.text? =
      tokens encoder.kind := by
    rw [List.filterMap_map]
    exact List.filterMap_some
  rw [Encoder.dataPoint, hitems]
  simp only [htexts]
  exact eraseDups_of_nodup hnodup

/-- Attaching evidence in parts, or in full.

A dataset is accepted as it is when evidence is attached in full.  Whatever a lawful source chooses,
the records come in blocks, one for each program within the bounds and in their order.  A record is
the program with three lists of tokens and with no other change; each list holds in increasing order
some of the tokens that the program yields, and an encoder reads from the record just the list of
its kind.  If the parts are random, no record is without a token, a block has at most as many
records as parts were asked for, and it has none if the program yields no token. -/
theorem extract_samples (hsource : source.IsLawful) (options : ExtractionOptions) (state : ρ)
    {dataset : Value} {programs : List Value} (hlists : dataset.Lists programsKey programs)
    (hprograms : ∀ program ∈ programs, IsProgram program) :
    ∃ blocks : List (List Value),
      extract source options dataset state = .ok (.object [(programsKey, .array blocks.flatten)]) ∧
      List.Forall₂ (fun program block =>
          (options.numSamples ≠ 0 → block.length ≤ options.numSamples ∧
            ((∀ kind token, ¬ Yields program kind token) → block = [])) ∧
          ∀ record ∈ block, ∃ tokens : Kind → List String,
            Annotates tokens program record ∧
            (∀ kind, (tokens kind).Pairwise (· < ·) ∧
              ∀ token ∈ tokens kind, Yields program kind token) ∧
            (options.numSamples ≠ 0 → ∃ kind, tokens kind ≠ []) ∧
            ∀ encoder : Encoder, encoder.dataPoint record = tokens encoder.kind)
        (programs.filter fun program => IsKept options program) blocks := by
  obtain ⟨blocks, hextract, hblocks⟩ := exists_blocks_extract source options state hlists hprograms
  refine ⟨blocks, hextract, ?_⟩
  have hkept : ∀ program ∈ programs.filter (fun program => IsKept options program),
      IsProgram program := fun program hmem => hprograms program (List.mem_of_mem_filter hmem)
  generalize programs.filter (fun program => IsKept options program) = kept at hkept hblocks
  refine List.Forall₂.imp ?_ ((List.forall₂_and_left _ _).2 ⟨hkept, hblocks⟩)
  rintro program _ ⟨hprogram, state, rfl⟩
  obtain ⟨hparts, hrandom⟩ := partsOf_spec hsource options (recordIn program) state
  generalize (partsOf source options (recordIn program) state).1 = parts at hparts hrandom
  refine ⟨fun hno => ⟨?_, fun hnone => ?_⟩, fun record hrecord => ?_⟩
  · rw [List.length_map]
    exact (hrandom hno).1
  · rw [List.map_eq_nil_iff, List.eq_nil_iff_forall_not_mem]
    intro part hpart
    obtain ⟨kind, token, htoken⟩ := Evidence.isEmpty_eq_false_iff.1 ((hrandom hno).2 part hpart)
    exact hnone kind token (mem_evidenceOf_recordIn.1 (hparts part hpart kind token htoken))
  · obtain ⟨part, hpart, rfl⟩ := List.mem_map.1 hrecord
    have hannotates := annotates_attach hprogram part
    refine ⟨_, hannotates, fun kind => ⟨(part.get kind).sorted, fun token htoken => ?_⟩,
      fun hno => ?_, fun encoder => ?_⟩
    · exact mem_evidenceOf_recordIn.1 (hparts part hpart kind token htoken)
    · obtain ⟨kind, token, htoken⟩ := Evidence.isEmpty_eq_false_iff.1 ((hrandom hno).2 part hpart)
      exact ⟨kind, List.ne_nil_of_mem htoken⟩
    · exact dataPoint_of_annotates hannotates encoder (TokenSet.nodup_toList _)

/-- The source that is told the sizes, as far as they are within the bounds, and takes the first
tokens. -/
def takingFirst : SubsetSource (List Nat) where
  size bound sizes := (min (sizes.headD 0) bound, sizes.tail)
  choose size items sizes := (items.take size, sizes)

/-- Taking the first tokens is a lawful choice. -/
theorem isLawful_takingFirst : takingFirst.IsLawful where
  size_le _ _ := Nat.min_le_right _ _
  choose_subperm size items _ _ _ := (List.take_sublist size items).subperm
  length_choose _ _ _ hsize _ := List.length_take_of_le hsize

/-- Of two programs one yields no token, and no record results of it.  Of the three parts that are
given to the other one, the first is empty, and two records result. -/
theorem extract_samples_two :
    let silent : Value := .object [("sequences", .array [])]
    let calling : Value := .object
      [("sequences", .array [.object [("calls", .ofTexts ["A.b(C)", "A.d()"])]])]
    let dataset : Value := .object [("programs", .array [silent, calling])]
    let options : ExtractionOptions := ⟨1, 2, 3⟩
    let sizes := [0, 0, 0, 0, 0, 0, 0, 0, 0, 0, 0, 0, 1, 0, 1, 2, 1, 0]
    randomSubsets.IsLawful ∧ takingFirst.IsLawful ∧
      dataset.Lists programsKey [silent, calling] ∧
      (∀ program ∈ [silent, calling], IsProgram program) ∧ options.numSamples ≠ 0 ∧
      ∃ first second, extract takingFirst options dataset sizes =
          .ok (.object [("programs", .array [first, second])]) ∧
        ∃ tokens : Kind → List String, Annotates tokens calling second ∧
          tokens .apiCalls = ["b", "d"] ∧ tokens .types = ["A"] ∧ tokens .context = [] ∧
          ∀ encoder : Encoder, encoder.dataPoint second = tokens encoder.kind := by
  intro silent calling dataset options sizes
  have hlists : dataset.Lists programsKey [silent, calling] := ⟨_, rfl, rfl⟩
  have hprograms : ∀ program ∈ [silent, calling], IsProgram program := by
    refine List.forall_mem_cons.2 ⟨⟨[], ⟨_, rfl, rfl⟩, nofun⟩,
      List.forall_mem_cons.2 ⟨⟨_, ⟨_, rfl, rfl⟩, ?_⟩, nofun⟩⟩
    exact List.forall_mem_singleton.2 ⟨_, _, rfl, rfl⟩
  let reader : Kind → Encoder := fun kind => ⟨kind, 1, 1, 1, none⟩
  have hrecords : ∃ first second, extract takingFirst options dataset sizes =
      .ok (.object [("programs", .array [first, second])]) ∧
      (reader .apiCalls).dataPoint second = ["b", "d"] ∧
      (reader .types).dataPoint second = ["A"] ∧ (reader .context).dataPoint second = [] :=
    ⟨_, _, by cbv, by cbv, by cbv, by cbv⟩
  obtain ⟨first, second, hextract, hcalls, htypes, hcontext⟩ := hrecords
  obtain ⟨blocks, hown, hblocks⟩ :=
    extract_samples isLawful_takingFirst options sizes hlists hprograms
  have hkept : [silent, calling].filter (fun program => IsKept options program) =
      [silent, calling] := by cbv
  rw [hkept] at hblocks
  obtain ⟨omitted, _, ⟨homitted, -⟩, hrest, rfl⟩ := List.forall₂_cons_left_iff.1 hblocks
  obtain ⟨block, _, ⟨-, hblock⟩, hnil, rfl⟩ := List.forall₂_cons_left_iff.1 hrest
  obtain rfl := List.forall₂_nil_left_iff.1 hnil
  have hsequences : sequencesOf silent = [] := by cbv
  have hsilent : ∀ kind token, ¬ Yields silent kind token := by
    rintro kind token ⟨sequence, hsequence, -⟩
    rw [hsequences] at hsequence
    cases hsequence
  obtain rfl := (homitted (by decide)).2 hsilent
  rw [List.flatten_cons, List.nil_append, List.flatten_singleton, hextract] at hown
  obtain ⟨-, rfl⟩ : "programs" = programsKey ∧ [first, second] = block := by simpa using hown
  obtain ⟨tokens, hannotates, -, -, hdata⟩ := hblock second (by simp)
  exact ⟨isLawful_randomSubsets, isLawful_takingFirst, hlists, hprograms, by decide, first, second,
    hextract, tokens, hannotates, (hdata (reader .apiCalls)).symm.trans hcalls,
    (hdata (reader .types)).symm.trans htypes, (hdata (reader .context)).symm.trans hcontext, hdata⟩

end Extraction

end EvidenceSynthesis
