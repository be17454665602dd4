import EvidenceSynthesis.Evidence.Basic
import EvidenceSynthesis.Failure
import EvidenceSynthesis.Random.Choice

/-!
# Evidence of a dataset

A dataset lists programs as records, each with the sequences of calls that were seen in
it: `{"programs": [{"sequences": [{"calls": […]}, …], …}, …]}`.  To every record the
evidence of its calls is attached, either in full or as several random parts of it.
Records with too many or too long sequences are left out, but they have to be well
formed as well.
-/

namespace EvidenceSynthesis

open Json (Value Members)

/-- Why evidence cannot be attached to a dataset. -/
inductive DatasetError where
  /-- The dataset has no list of programs. -/
  | noPrograms
  /-- The program at an index is no object. -/
  | notAnObject (index : Nat)
  /-- The program at an index has no list of sequences. -/
  | noSequences (index : Nat)
  /-- A sequence of the program at an index has no list of calls. -/
  | noCalls (index : Nat)
  deriving Repr, DecidableEq

/-- The error as a failure. -/
def DatasetError.toFailure : DatasetError → Failure
  | noPrograms => .of "input has no \"programs\" list"
  | notAnObject index => .of s!"program {index} is not an object"
  | noSequences index => (Failure.of "missing \"sequences\" list").within s!"program {index}"
  | noCalls index => (Failure.of "sequence without \"calls\" list").within s!"program {index}"

/-- A record of a dataset, and the calls of its sequences. -/
structure ProgramRecord where
  members : Members
  sequences : List (List String)

/-- How evidence is attached. -/
structure ExtractionOptions where
  /-- Records with more sequences are left out. -/
  maxSeqs : Nat
  /-- Records with a longer sequence are left out. -/
  maxSeqLength : Nat
  /-- The number of random parts of the evidence; with none, the evidence is attached in
  full. -/
  numSamples : Nat
  deriving Repr, DecidableEq

/-- A way to choose subsets; the state of the choice is of type `ρ`. -/
structure SubsetSource (ρ : Type) where
  /-- Chooses a size up to a bound. -/
  size : Nat → ρ → Nat × ρ
  /-- Chooses as many items of a list. -/
  choose : Nat → List String → ρ → List String × ρ

namespace Extraction

/-! ### Reading -/

/-- The member of a dataset that lists its programs. -/
def programsKey : String := "programs"

/-- The member of a record that lists its sequences. -/
def sequencesKey : String := "sequences"

/-- The member of a sequence that lists its calls. -/
def callsKey : String := "calls"

/-- The items that a member of an object lists. -/
def listed? (key : String) (value : Value) : Option (List Value) :=
  (value.member? key).bind Value.items?

/-- The calls of a sequence: what is no text is passed over. -/
def callsOf? (sequence : Value) : Option (List String) :=
  (listed? callsKey sequence).map fun items => items.filterMap Value.text?

/-- The record of a program. -/
def recordOf (index : Nat) (program : Value) : Except DatasetError ProgramRecord := do
  let some members := program.members? | throw (.notAnObject index)
  let some sequences := listed? sequencesKey program | throw (.noSequences index)
  let some calls := sequences.mapM callsOf? | throw (.noCalls index)
  return ⟨members, calls⟩

/-- The records of programs, the first of which has the index `index`. -/
def recordsFrom (index : Nat) : List Value → Except DatasetError (List ProgramRecord)
  | [] => .ok []
  | program :: rest => do
    let first ← recordOf index program
    let others ← recordsFrom (index + 1) rest
    return first :: others

/-- The records of a dataset. -/
def records (dataset : Value) : Except DatasetError (List ProgramRecord) :=
  match listed? programsKey dataset with
  | some programs => recordsFrom 0 programs
  | none => .error .noPrograms

/-! ### Attaching -/

/-- Whether a record is within the bounds. -/
def isWithin (options : ExtractionOptions) (record : ProgramRecord) : Bool :=
  record.sequences.length ≤ options.maxSeqs &&
    record.sequences.all fun calls => decide (calls.length ≤ options.maxSeqLength)

/-- The evidence of all calls of a record. -/
def evidenceOf (record : ProgramRecord) : Evidence :=
  .ofCalls record.sequences.flatten

/-- The members of a record with evidence in place of what stood under its names. -/
def attach (evidence : Evidence) (members : Members) : Members :=
  Kind.all.foldl
    (fun members kind => members.put kind.name (.ofTexts (evidence.get kind).toList)) members

variable {ρ : Type}

/-- A random part of the tokens of the listed kinds. -/
def sampleKinds (source : SubsetSource ρ) (full : Evidence) (part : Evidence) :
    List Kind → ρ → Evidence × ρ
  | [], state => (part, state)
  | kind :: rest, state =>
    let tokens := (full.get kind).toList
    let (size, state) := source.size tokens.length state
    let (chosen, state) := source.choose size tokens state
    sampleKinds source full (part.add kind chosen) rest state

/-- A random part of evidence. -/
def sample (source : SubsetSource ρ) (full : Evidence) (state : ρ) : Evidence × ρ :=
  sampleKinds source full .empty Kind.all state

/-- A number of random parts of evidence, without those that are empty. -/
def samples (source : SubsetSource ρ) (full : Evidence) : Nat → ρ → List Evidence × ρ
  | 0, state => ([], state)
  | n + 1, state =>
    let (first, state) := sample source full state
    let (others, state) := samples source full n state
    (if first.isEmpty then others else first :: others, state)

/-- The evidence that is attached to a record, once for each record that results. -/
def partsOf (source : SubsetSource ρ) (options : ExtractionOptions) (record : ProgramRecord)
    (state : ρ) : List Evidence × ρ :=
  if options.numSamples = 0 then ([evidenceOf record], state)
  else samples source (evidenceOf record) options.numSamples state

/-- The records that result, in order. -/
def results (source : SubsetSource ρ) (options : ExtractionOptions) :
    List ProgramRecord → ρ → List Members × ρ
  | [], state => ([], state)
  | record :: rest, state =>
    if isWithin options record then
      let (parts, state) := partsOf source options record state
      let (others, state) := results source options rest state
      (parts.map (attach · record.members) ++ others, state)
    else
      results source options rest state

/-- The dataset with evidence attached to its programs. -/
def extract (source : SubsetSource ρ) (options : ExtractionOptions) (dataset : Value)
    (state : ρ) : Except DatasetError Value :=
  (records dataset).map fun records =>
    .object [(programsKey, .array ((results source options records state).1.map .object))]

/-- Subsets that are chosen with random words. -/
def randomSubsets : SubsetSource Random.Stream where
  size bound stream := stream.below64 (bound + 1)
  choose size items stream := stream.sample size items

end Extraction

namespace ExtractionOptions

/-- The options that hold where no others are set. -/
def standard : ExtractionOptions := ⟨9999, 9999, 0⟩

end ExtractionOptions

end EvidenceSynthesis
