import EvidenceSynthesis.CommandLine.Argument
import EvidenceSynthesis.Dataset.Extraction
import EvidenceSynthesis.Settings.SearchSettings

/-!
# Commands

The commands of the program and the arguments that each of them takes.
-/

namespace EvidenceSynthesis.CommandLine

/-- The address that is used where none is given. -/
def standardAddress : String := "localhost:8084"

/-- The arguments of commands that run searches. -/
structure SearchArguments where
  /-- The directory of the model. -/
  directory : String
  /-- The seed of the draws. -/
  seed : Option UInt64
  overrides : LimitOverrides
  deriving Repr, DecidableEq

/-- The arguments of the server. -/
structure ServeArguments where
  search : SearchArguments
  logsDirectory : Option String
  bind : String
  isPublic : Bool
  deriving Repr, DecidableEq

/-- The arguments of the extraction of evidence. -/
structure ExtractArguments where
  input : String
  output : String
  options : ExtractionOptions
  seed : Option UInt64
  deriving Repr, DecidableEq

/-- A command with its arguments. -/
inductive Command where
  /-- Answers requests that come over connections. -/
  | serve (arguments : ServeArguments)
  /-- Sends a request to a server. -/
  | query (address evidence : String)
  /-- Runs one search. -/
  | infer (search : SearchArguments) (evidence : String)
  /-- Attaches evidence to a dataset. -/
  | extractEvidence (arguments : ExtractArguments)
  deriving Repr, DecidableEq

/-- A command, and how much it is to say of its work. -/
structure Invocation where
  verbosity : Verbosity
  command : Command
  deriving Repr, DecidableEq

/-! ### Values -/

/-- A word of 64 bits. -/
def word64? (s : String) : Option Nat :=
  Text.word? Word.bound64 s.toList

/-- A word of 32 bits; zero may have a minus in front. -/
def word32? (s : String) : Option UInt32 :=
  match s.toList with
  | '-' :: digits => ((Text.digits? 10 digits).filter (· == 0)).map fun _ => 0
  | chars => (Text.word? Word.bound32 chars).map UInt32.ofNat

/-- A path, which may not be empty. -/
def path? (s : String) : Option String :=
  if s.isEmpty then none else some s

/-! ### Forms -/

/-- Arguments of a search that are not complete. -/
structure SearchDraft where
  directory : Option String := none
  seed : Option UInt64 := none
  overrides : LimitOverrides := .none

/-- The complete arguments of a search. -/
def SearchDraft.finish (draft : SearchDraft) : Except Halt SearchArguments :=
  match draft.directory with
  | some directory => .ok ⟨directory, draft.seed, draft.overrides⟩
  | none => .error (.usage "--save-dir is missing")

/-- The options of a search, for a command whose draft has them as a part. -/
def searchOptions {δ : Type} (change : (SearchDraft → SearchDraft) → δ → δ) :
    List (String × (String → δ → Option δ)) :=
  [("save-dir", fun s draft =>
      (path? s).map fun directory =>
        change (fun d => { d with directory := some directory }) draft),
   ("seed", fun s draft =>
      (word64? s).map fun n => change (fun d => { d with seed := some (.ofNat n) }) draft),
   ("max-draws", fun s draft =>
      (word64? s).map fun n =>
        change (fun d => { d with overrides.maxDraws := some (.ofNat n) }) draft),
   ("gap-threshold", fun s draft =>
      (word32? s).map fun n => change (fun d => { d with overrides.gapThreshold := some n }) draft),
   ("top-k", fun s draft =>
      (word64? s).map fun n =>
        change (fun d => { d with overrides.topK := some (.ofNat n) }) draft)]

/-- Arguments of the server that are not complete. -/
structure ServeDraft where
  search : SearchDraft := {}
  logsDirectory : Option String := none
  bind : String := standardAddress
  isPublic : Bool := false

/-- How the arguments of the server are read. -/
def serveForm : Form ServeDraft where
  blank := {}
  options :=
    searchOptions (fun change draft => { draft with search := change draft.search }) ++
      [("logs-dir", fun s draft =>
          (path? s).map fun directory => { draft with logsDirectory := some directory }),
       ("bind", fun s draft => some { draft with bind := s })]
  switches := [("public", fun draft => { draft with isPublic := true })]
  places := []

/-- Arguments of a query that are not complete. -/
structure QueryDraft where
  address : String := standardAddress
  evidence : Option String := none

/-- How the arguments of a query are read. -/
def queryForm : Form QueryDraft where
  blank := {}
  options := [("addr", fun s draft => some { draft with address := s })]
  switches := []
  places := [fun s draft => some { draft with evidence := some s }]

/-- Arguments of a single search that are not complete. -/
structure InferDraft where
  search : SearchDraft := {}
  evidence : Option String := none

/-- How the arguments of a single search are read. -/
def inferForm : Form InferDraft where
  blank := {}
  options := searchOptions fun change draft => { draft with search := change draft.search }
  switches := []
  places := [fun s draft => some { draft with evidence := some s }]

/-- Arguments of the extraction that are not complete. -/
structure ExtractDraft where
  input : Option String := none
  output : Option String := none
  options : ExtractionOptions := .standard
  seed : Option UInt64 := none

/-- How the arguments of the extraction are read. -/
def extractForm : Form ExtractDraft where
  blank := {}
  options :=
    [("max-seqs", fun s draft =>
        (word64? s).map fun n => { draft with options.maxSeqs := n }),
     ("max-seq-length", fun s draft =>
        (word64? s).map fun n => { draft with options.maxSeqLength := n }),
     ("num-samples", fun s draft =>
        (word64? s).map fun n => { draft with options.numSamples := n }),
     ("seed", fun s draft => (word64? s).map fun n => { draft with seed := some (.ofNat n) })]
  switches := []
  places :=
    [fun s draft => (path? s).map fun p => { draft with input := some p },
     fun s draft => (path? s).map fun p => { draft with output := some p }]

/-! ### Reading -/

/-- A draft with the given form, completed to a command. -/
def finishWith {δ : Type} (form : Form δ) (finish : δ → Except Halt Command)
    (arguments : List String) : Except Halt Invocation := do
  let progress ← form.read arguments
  let command ← finish progress.draft
  return ⟨progress.verbosity, command⟩

/-- A value that must be given. -/
def need {α : Type} (name : String) : Option α → Except Halt α
  | some a => .ok a
  | none => .error (.usage s!"{name} is missing")

/-- The names of the commands. -/
def commandNames : List String := ["serve", "query", "infer", "extract-evidence", "help"]

/-- What a request for help comes to. -/
def helpFor : List String → Halt
  | [] => .help
  | [name] => if name ∈ commandNames then .help else .usage s!"unknown command {name}"
  | _ => .usage "unknown command"

/-- The command of a name with its arguments. -/
def commandOf (name : String) (arguments : List String) : Except Halt Invocation :=
  match name with
  | "serve" =>
    finishWith serveForm (fun draft => do
      return .serve ⟨← draft.search.finish, draft.logsDirectory, draft.bind, draft.isPublic⟩)
      arguments
  | "query" =>
    finishWith queryForm (fun draft => do
      return .query draft.address (← need "EVIDENCE" draft.evidence)) arguments
  | "infer" =>
    finishWith inferForm (fun draft => do
      return .infer (← draft.search.finish) (← need "EVIDENCE" draft.evidence)) arguments
  | "extract-evidence" =>
    finishWith extractForm (fun draft => do
      return .extractEvidence
        ⟨← need "INPUT" draft.input, ← need "OUTPUT" draft.output, draft.options, draft.seed⟩)
      arguments
  | "help" => .error (helpFor arguments)
  | _ => .error (.usage s!"unknown command {name}")

/-- The invocation of a command line, whose flags in front hold as well. -/
def readFrom (verbosity : Verbosity) : List String → Except Halt Invocation
  | [] => .error (.usage "a command is missing")
  | argument :: rest =>
    match Argument.ofText argument with
    | .separator => .error (.usage "a command is missing")
    | .plain name =>
      (commandOf name rest).map fun invocation =>
        { invocation with verbosity := verbosity.join invocation.verbosity }
    | .short letters =>
      match letters.foldlM (Verbosity.raiseLetter true) verbosity with
      | .ok verbosity => readFrom verbosity rest
      | .error halt => .error halt
    | .long name value =>
      match verbosity.raiseName true name value with
      | .ok verbosity => readFrom verbosity rest
      | .error halt => .error halt

/-- The invocation of a command line. -/
def Invocation.ofArguments (arguments : List String) : Except Halt Invocation :=
  readFrom .standard arguments

end EvidenceSynthesis.CommandLine
