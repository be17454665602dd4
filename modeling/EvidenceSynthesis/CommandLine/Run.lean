import EvidenceSynthesis.CommandLine.Command
import EvidenceSynthesis.Files.Access
import EvidenceSynthesis.Files.Path
import EvidenceSynthesis.Logs.Rotation
import EvidenceSynthesis.Model.Corpus
import EvidenceSynthesis.Network.Address
import EvidenceSynthesis.Server.Connection
import EvidenceSynthesis.Settings.Timeout

/-!
# Running commands

What the commands do, given the operations on files, on connections and on the
terminal.  A command prints its result, or it fails and prints nothing.
-/

namespace EvidenceSynthesis.CommandLine

open Text (Octets)

/-- What a program ends with. -/
inductive Status where
  | success
  | failure
  | usage
  deriving Repr, DecidableEq

/-- The number of a status. -/
def Status.code : Status → Nat
  | success => 0
  | failure => 1
  | usage => 2

/-- The program and its version. -/
def versionText : String := "bayou 0.1.0"

/-- The file of the log, within its directory. -/
def logName : String := "ast_server.log"

/-- How the commands are called. -/
def helpText : String :=
  "Synthesize program ASTs from API, type and context evidence\n\n" ++
  "Usage: bayou [-v] [--quiet] <COMMAND>\n\n" ++
  "Commands:\n" ++
  "  serve             Serve length-prefixed evidence requests over TCP\n" ++
  "  query             Send one evidence request to a running server\n" ++
  "  infer             Run a single search in-process and print the response\n" ++
  "  extract-evidence  Derive evidence for every program of a driver dump\n" ++
  "  help              Print this message\n"

/-- The surroundings of a program; `m` is the effect of the operations on them. -/
structure Environment (m : Type → Type) where
  files : FileAccess m
  /-- The content of an environment variable. -/
  variableContent : String → m (Option String)
  /-- A seed that is not foreseeable. -/
  freshSeed : m UInt64
  /-- Writes to the standard output. -/
  print : String → m Unit
  /-- Writes to the standard error. -/
  report : String → m Unit
  /-- The addresses that a text stands for. -/
  resolve : String → m (Option (List Network.Address))
  /-- Answers the connections to an address, within a limit of octets and of
  milliseconds. -/
  serve : {σ : Type} → Network.Address → Engine σ → σ → (limit timeout : Nat) →
    m (Except Failure Unit)
  /-- Sends octets to an address and gives what comes back. -/
  exchange : (address : String) → (timeout : Nat) → Octets → m (Except Failure Octets)

section

variable {m : Type → Type} [Monad m]

/-- A step on files, with what it is for in case it fails. -/
def onFiles {α : Type} (context : String) (step : m (Except FileError α)) :
    ExceptT Failure m α :=
  ExceptT.mk <| do
    return (← step).mapError fun error => (Failure.of error.message).within context

/-- A result that is at hand. -/
def ofResult {α : Type} (result : Except Failure α) : ExceptT Failure m α :=
  ExceptT.mk (pure result)

/-- The search in the directory of a model. -/
def loadSearch (env : Environment m) (arguments : SearchArguments) :
    ExceptT Failure m Search := do
  let path := FilePath.within arguments.directory SearchSettings.fileName
  let file ←
    if ← env.files.isPresent path then
      let file : Except FileError Octets ← ExceptT.lift (env.files.read path)
      pure (some file)
    else pure none
  let limits ← ofResult (SearchSettings.resolve path file arguments.overrides)
  return ⟨limits.1, limits.2⟩

/-- What keeps a model from being loaded, as a failure. -/
def loadFailure : Interruption → Failure
  | .failed error => error.toFailure.within "Failed to load model"
  | .crashed => .of "model loader panicked"

/-- The corpus in the directory of a model. -/
def loadCorpus (env : Environment m) (directory : String) : ExceptT Failure m Corpus := do
  let config : Except FileError Octets ←
    ExceptT.lift (env.files.read (FilePath.within directory Corpus.configName))
  let programs : Except FileError Octets ←
    ExceptT.lift (env.files.read (FilePath.within directory Corpus.programsName))
  ofResult ((Corpus.load directory config programs).mapError loadFailure)

/-- The engine of a model, and the state in which it starts. -/
def loadEngine (env : Environment m) (arguments : SearchArguments) :
    ExceptT Failure m
      (Engine (Corpus.Session Random.Stream) × Corpus.Session Random.Stream) := do
  let search ← loadSearch env arguments
  let corpus ← loadCorpus env arguments.directory
  let seed ←
    match arguments.seed with
    | some seed => pure seed
    | none => ExceptT.lift env.freshSeed
  return (⟨corpus.predictor Corpus.weightedChoice, search⟩, .start (.ofSeed seed))

/-- Makes sure that there is a log to write to. -/
def openLog (env : Environment m) (directory : String) : ExceptT Failure m Unit := do
  let path := FilePath.within directory logName
  onFiles s!"Failed to create logs dir {directory}" (env.files.createDirectories directory)
  let _ ← onFiles s!"Failed to rotate {path}"
    (Rotation.rotate env.files path Rotation.standardBound Rotation.standardBackups)
  onFiles s!"Failed to open log file {path}" (env.files.ensure path)

/-- The time that a connection may take. -/
def timeout (env : Environment m) : ExceptT Failure m Nat := do
  return Timeout.ofVariable (← ExceptT.lift (env.variableContent Timeout.variableName))

/-- Runs the server. -/
def runServe (env : Environment m) (arguments : ServeArguments) : ExceptT Failure m Unit := do
  if let some directory := arguments.logsDirectory then openLog env directory
  let resolved ← ExceptT.lift (env.resolve arguments.bind)
  let address ← ofResult
    (Network.Address.listenOn arguments.bind arguments.isPublic resolved)
  let (engine, state) ← loadEngine env arguments.search
  ExceptT.mk (env.serve address engine state Frame.standardLimit (← timeout env))

/-- Sends a query and prints the answer. -/
def runQuery (env : Environment m) (address evidence : String) : ExceptT Failure m Unit := do
  let octets ← ofResult (Connection.request evidence)
  let received ← ExceptT.mk (env.exchange address (← timeout env) octets)
  let body ← ofResult (Connection.response received)
  ExceptT.lift (env.print (body ++ "\n"))

/-- Runs one search and prints the response. -/
def runInfer (env : Environment m) (arguments : SearchArguments) (evidence : String) :
    ExceptT Failure m Unit := do
  let request ← ofResult (Engine.parse evidence)
  let (engine, state) ← loadEngine env arguments
  let response ← ofResult (engine.generate request state).1
  ExceptT.lift (env.print (response.text ++ "\n"))

/-- Attaches evidence to the dataset in one file and writes it to another. -/
def runExtract (env : Environment m) (arguments : ExtractArguments) :
    ExceptT Failure m Unit := do
  let octets ← onFiles s!"Failed to read {arguments.input}" (env.files.read arguments.input)
  let some dataset := Json.Value.ofOctets? octets
    | throw (.of s!"Failed to parse {arguments.input}")
  let seed ←
    match arguments.seed with
    | some seed => pure seed
    | none => ExceptT.lift env.freshSeed
  let extracted ← ofResult <|
    (Extraction.extract Extraction.randomSubsets arguments.options dataset
      (.ofSeed seed)).mapError DatasetError.toFailure
  onFiles s!"Failed to write {arguments.output}"
    (env.files.write arguments.output (Text.Utf8.encode extracted.pretty))

/-- Runs a command. -/
def execute (env : Environment m) : Command → ExceptT Failure m Unit
  | .serve arguments => runServe env arguments
  | .query address evidence => runQuery env address evidence
  | .infer search evidence => runInfer env search evidence
  | .extractEvidence arguments => runExtract env arguments

/-- Runs the command of a command line. -/
def run (env : Environment m) (arguments : List String) : m Status := do
  match Invocation.ofArguments arguments with
  | .error (.usage reason) =>
    env.report s!"error: {reason}\n"
    return .usage
  | .error .help =>
    env.print helpText
    return .success
  | .error .version =>
    env.print (versionText ++ "\n")
    return .success
  | .ok invocation =>
    match ← (execute env invocation.command).run with
    | .ok () => return .success
    | .error failure =>
      env.report s!"Error: {failure.message}\n"
      return .failure

end

end EvidenceSynthesis.CommandLine
