import EvidenceSynthesis.CommandLine.World
import EvidenceSynthesis.Proofs.Logs.Rotations
import EvidenceSynthesis.Proofs.Model.Draws
import EvidenceSynthesis.Proofs.Program.Walks
import EvidenceSynthesis.Proofs.Server.FirstFrame

/-!
# One search and the first answer of a server

Evidence can be searched for in two ways: by one search that prints its response, or by a client
that sends the evidence to a server.  The two commands go separate ways.  The first one reads the
evidence before it loads the model, and fails if anything fails; the second one loads the model,
waits for clients, reads their evidence from frames, and answers whatever fails with the empty
response.

Both are run here in worlds to which clients come (`CommandLine.ClientWorld`).  What is loaded is
told by the files of a model and by nothing else (`CommandLine.run_loadEngine`).  With the engine
that is loaded, both come to what it makes of the text of the evidence (`Engine.generateText`): the
one prints it (`CommandLine.run_infer`), and the other one sends it to the first client
(`CommandLine.run_serve`, `Connection.exists_first_answer`).  Hence the two agree on every evidence
that a frame may hold (`CommandLine.infer_agrees_with_first_answer`).
-/

namespace EvidenceSynthesis

open Text (Octets)
open Text.Utf8 (encode)

namespace CommandLine

/-- A world to which clients come, and the answers that they got from the last server. -/
structure ClientWorld where
  world : World
  answers : List Octets

namespace ClientWorld

/-- A step in the world. -/
def onWorld {α : Type} (step : StateM World α) : StateM ClientWorld α :=
  modifyGet fun clients =>
    let (a, world) := step.run clients.world
    (a, { clients with world })

/-- The operations on the files of the world. -/
def files : FileAccess (StateM ClientWorld) where
  isPresent path := onWorld (World.files.isPresent path)
  size path := onWorld (World.files.size path)
  read path := onWorld (World.files.read path)
  write path octets := onWorld (World.files.write path octets)
  ensure path := onWorld (World.files.ensure path)
  remove path := onWorld (World.files.remove path)
  rename source target := onWorld (World.files.rename source target)
  createDirectories path := onWorld (World.files.createDirectories path)

/-- The surroundings of a program where texts stand for addresses and clients send octets, one
client after another, to whatever server there is. -/
def environment (addresses : String → Option (List Network.Address)) (arrivals : List Octets) :
    Environment (StateM ClientWorld) where
  files := files
  variableContent name := onWorld (World.environment.variableContent name)
  freshSeed := onWorld World.environment.freshSeed
  print s := onWorld (World.environment.print s)
  report s := onWorld (World.environment.report s)
  resolve s := pure (addresses s)
  serve _ engine state limit _ := modifyGet fun clients =>
    let (answers, _) := Connection.serveAll engine.generateGuarded limit arrivals (.fresh state)
    (.ok (), { clients with answers })
  exchange address timeout octets := onWorld (World.environment.exchange address timeout octets)

end ClientWorld

/-! ### Models -/

/-- What is found of a model in its directory. -/
structure ModelFiles where
  /-- The file of the limits, if there is one. -/
  limits : Option (Except FileError Octets)
  config : Except FileError Octets
  programs : Except FileError Octets

/-- What a store has of the model in a directory. -/
def ModelFiles.ofStore (store : FileStore) (directory : String) : ModelFiles :=
  let limitsPath := FilePath.within directory SearchSettings.fileName
  { limits := if store.isPresentAt limitsPath then some (store.readAt limitsPath) else none
    config := store.readAt (FilePath.within directory Corpus.configName)
    programs := store.readAt (FilePath.within directory Corpus.programsName) }

namespace ModelFiles

variable (files : ModelFiles) (directory : String) (overrides : LimitOverrides)

/-- The search with the limits of a model. -/
def search : Except Failure Search :=
  (SearchSettings.resolve (FilePath.within directory SearchSettings.fileName) files.limits
    overrides).map fun ⟨limits, valid⟩ => ⟨limits, valid⟩

/-- The corpus of a model. -/
def corpus : Except Failure Corpus :=
  (Corpus.load directory files.config files.programs).mapError loadFailure

/-- The engine of a model and the state in which it starts. -/
def engine (seed : UInt64) :
    Except Failure (Engine (Corpus.Session Random.Stream) × Corpus.Session Random.Stream) := do
  let search ← files.search directory overrides
  let corpus ← files.corpus directory
  return (⟨corpus.predictor Corpus.weightedChoice, search⟩, .start (.ofSeed seed))

section

variable {files directory overrides} {seed : UInt64}
  {engine : Engine (Corpus.Session Random.Stream)} {state : Corpus.Session Random.Stream}

/-- With its engine, the corpus of a model is loaded. -/
theorem exists_corpus_eq_ok (h : files.engine directory overrides seed = .ok (engine, state)) :
    ∃ corpus, files.corpus directory = .ok corpus := by
  obtain ⟨_, -, h⟩ := bind_eq_ok_iff.1 h
  obtain ⟨corpus, hcorpus, -⟩ := bind_eq_ok_iff.1 h
  exact ⟨corpus, hcorpus⟩

/-- A program can be drawn for any evidence from the corpus of a model if its greatest overlap is
below `2 ^ 31`. -/
theorem canDraw_of_corpus_eq_ok {corpus : Corpus} (hcorpus : files.corpus directory = .ok corpus)
    (h : corpus.greatestOverlap < Word.bound31) (evidence : Evidence) :
    corpus.CanDraw evidence := by
  obtain ⟨config, octets, trees, -, -, -, htrees⟩ :=
    Corpus.load_eq_ok_iff.1 (mapError_eq_ok_iff.1 hcorpus)
  obtain ⟨hnonempty, -, rfl⟩ := Corpus.ofTrees_eq_ok_iff.1 htrees
  exact Corpus.canDraw_corpusOf_of_greatestOverlap_lt hnonempty h evidence

/-- A search on a model that was loaded fails only where no program can be drawn from its corpus. -/
theorem exists_generate_eq_ok_iff
    (h : files.engine directory overrides seed = .ok (engine, state)) {corpus : Corpus}
    (hcorpus : files.corpus directory = .ok corpus) (request : Request) :
    (∃ response, (engine.generate request state).1 = .ok response) ↔
      corpus.CanDraw request.evidence := by
  obtain ⟨search, -, h⟩ := bind_eq_ok_iff.1 h
  obtain ⟨_, hown, h⟩ := bind_eq_ok_iff.1 h
  cases h
  cases hcorpus.symm.trans hown
  obtain ⟨config, octets, trees, -, -, -, htrees⟩ :=
    Corpus.load_eq_ok_iff.1 (mapError_eq_ok_iff.1 hcorpus)
  obtain ⟨hnonempty, -, rfl⟩ := Corpus.ofTrees_eq_ok_iff.1 htrees
  have hsession := Corpus.Session.isFaithful_start (Corpus.corpusOf config trees)
    (Random.Stream.ofSeed seed)
  constructor
  · rintro ⟨response, hresponse⟩
    by_contra hcannot
    have hprograms := Corpus.programs_corpusOf_ne_nil config hnonempty
    rw [Engine.generate, Corpus.answer_of_not_canDraw hprograms hsession hcannot] at hresponse
    cases hresponse
  · intro hdraw
    obtain ⟨-, -, hsample, -⟩ := Corpus.sample_corpusOf hnonempty hdraw
      Corpus.picksPlaces_weightedChoice hsession search
    have hanswer : search.answer ((Corpus.corpusOf config trees).predictor Corpus.weightedChoice)
        request.evidence (.start (.ofSeed seed)) = (.ok _, _) :=
      Search.answer_eq_ok_iff.2 ⟨_, hsample, rfl⟩
    simp only [Engine.generate, hanswer]
    exact ⟨_, rfl⟩

/-- The engine of a model makes something of exactly the texts that are accepted as requests and for
which a program can be drawn. -/
theorem exists_generateText_eq_ok_iff
    (h : files.engine directory overrides seed = .ok (engine, state)) {corpus : Corpus}
    (hcorpus : files.corpus directory = .ok corpus) (evidence : String) :
    (∃ text, (engine.generateText evidence state).1 = .ok text) ↔
      ∃ request, Request.ofText evidence = .ok request ∧ corpus.CanDraw request.evidence := by
  cases hrequest : Request.ofText evidence with
  | error error =>
    rw [Engine.generateText, Engine.parse, hrequest]
    constructor
    · rintro ⟨text, htext⟩
      cases htext
    · rintro ⟨request, haccepted, -⟩
      cases haccepted
  | ok request =>
    have htext : (engine.generateText evidence state).1 =
        (engine.generate request state).1.map Response.text := by
      rw [Engine.generateText, Engine.parse_eq_ok hrequest]
    have hgenerate := exists_generate_eq_ok_iff h hcorpus request
    rw [htext]
    constructor
    · rintro ⟨text, hmade⟩
      obtain ⟨response, hresponse, -⟩ := map_eq_ok_iff.1 hmade
      exact ⟨request, rfl, hgenerate.1 ⟨response, hresponse⟩⟩
    · rintro ⟨_, ⟨⟩, hdraw⟩
      obtain ⟨response, hresponse⟩ := hgenerate.2 hdraw
      exact ⟨response.text, by rw [hresponse]; rfl⟩

end

end ModelFiles

/-! ### Loading -/

section

variable (addresses : String → Option (List Network.Address)) (arrivals : List Octets)
  (clients : ClientWorld)

/-- A step goes on with a result that is at hand, or ends with its failure. -/
theorem run_ofResult_bind {α β : Type} (result : Except Failure α)
    (next : α → ExceptT Failure (StateM ClientWorld) β) :
    (ofResult result >>= next).run.run clients =
      match result with
      | .ok a => (next a).run.run clients
      | .error failure => (.error failure, clients) := by
  rw [run_bind_eq]
  cases result <;> rfl

/-- The search of a model is made of the file of the limits. -/
theorem run_loadSearch (arguments : SearchArguments) :
    (loadSearch (ClientWorld.environment addresses arrivals) arguments).run.run clients =
      ((ModelFiles.ofStore clients.world.store arguments.directory).search arguments.directory
        arguments.overrides, clients) := by
  have hsearch : ∀ path file,
      (do
        let limits ← ofResult (SearchSettings.resolve path file arguments.overrides)
        return (⟨limits.1, limits.2⟩ : Search) :
          ExceptT Failure (StateM ClientWorld) Search).run.run clients =
        ((SearchSettings.resolve path file arguments.overrides).map fun ⟨limits, valid⟩ =>
          ⟨limits, valid⟩, clients) := by
    intro path file
    rw [run_ofResult_bind]
    cases SearchSettings.resolve path file arguments.overrides <;> rfl
  let path := FilePath.within arguments.directory SearchSettings.fileName
  refine (run_lift_bind _ _ clients).trans ?_
  show StateT.run (ExceptT.run
    (if clients.world.store.isPresentAt path then _ else _)) clients = _
  -- the file is read only if there is one
  cases hpresent : clients.world.store.isPresentAt path with
  | false =>
    have hlimits : (ModelFiles.ofStore clients.world.store arguments.directory).limits = none :=
      if_neg (Bool.eq_false_iff.1 hpresent)
    rw [if_neg Bool.false_ne_true, ModelFiles.search, hlimits]
    exact hsearch path none
  | true =>
    have hlimits : (ModelFiles.ofStore clients.world.store arguments.directory).limits =
        some (clients.world.store.readAt path) := if_pos hpresent
    rw [if_pos rfl, ModelFiles.search, hlimits]
    exact (run_lift_bind _ _ clients).trans (hsearch path (some _))

/-- The corpus of a model is made of its two files. -/
theorem run_loadCorpus (directory : String) :
    (loadCorpus (ClientWorld.environment addresses arrivals) directory).run.run clients =
      ((ModelFiles.ofStore clients.world.store directory).corpus directory, clients) := rfl

/-- The engine of a model is made of its files, which are left as they are. -/
theorem run_loadEngine (directory : String) (seed : UInt64) (overrides : LimitOverrides) :
    (loadEngine (ClientWorld.environment addresses arrivals)
        ⟨directory, some seed, overrides⟩).run.run clients =
      ((ModelFiles.ofStore clients.world.store directory).engine directory overrides seed,
        clients) := by
  rw [loadEngine, ModelFiles.engine, run_bind_eq, run_loadSearch]
  cases (ModelFiles.ofStore clients.world.store directory).search directory overrides with
  | error failure => rfl
  | ok search =>
    show (_ >>= _ : ExceptT Failure (StateM ClientWorld) _).run.run clients = _
    rw [run_bind_eq, run_loadCorpus]
    cases (ModelFiles.ofStore clients.world.store directory).corpus directory <;> rfl

/-! ### The two commands -/

/-- The world in which one more text was printed. -/
def ClientWorld.printing (text : String) : ClientWorld :=
  { clients with world := { clients.world with printed := text :: clients.world.printed } }

theorem ClientWorld.printing_inj {clients : ClientWorld} {text other : String}
    (h : clients.printing text = clients.printing other) : text = other :=
  (List.cons.inj (congrArg (fun clients => clients.world.printed) h)).1

/-- One search prints what the engine makes of its evidence. -/
theorem run_infer {directory : String} {seed : UInt64} {overrides : LimitOverrides}
    {engine : Engine (Corpus.Session Random.Stream)} {state : Corpus.Session Random.Stream}
    (hengine : (ModelFiles.ofStore clients.world.store directory).engine directory overrides seed =
      .ok (engine, state)) (evidence : String) :
    (execute (ClientWorld.environment addresses arrivals)
        (.infer ⟨directory, some seed, overrides⟩ evidence)).run.run clients =
      match (engine.generateText evidence state).1 with
      | .ok text => (.ok (), clients.printing (text ++ "\n"))
      | .error failure => (.error failure, clients) := by
  rw [execute, runInfer, run_ofResult_bind]
  -- the evidence is looked at before the model is loaded
  cases hrequest : Engine.parse evidence with
  | error failure =>
    rw [Engine.generateText, hrequest]
  | ok request =>
    have htext : (engine.generateText evidence state).1 =
        (engine.generate request state).1.map Response.text := by
      rw [Engine.generateText, hrequest]
    show (_ >>= _ : ExceptT Failure (StateM ClientWorld) Unit).run.run clients = _
    rw [htext, run_bind_eq, run_loadEngine, hengine]
    show (_ >>= _ : ExceptT Failure (StateM ClientWorld) Unit).run.run clients = _
    rw [run_ofResult_bind]
    cases (engine.generate request state).1 <;> rfl

/-- The world in which a server loads its model: if the server keeps a log, then the log has been
opened. -/
def ClientWorld.afterLog : Option String → ClientWorld
  | none => clients
  | some directory => ((openLog (environment addresses arrivals) directory).run.run clients).2

/-- A server that keeps a log opens it first. -/
theorem execute_serve_of_log (env : Environment (StateM ClientWorld)) (search : SearchArguments)
    (logs bind : String) (isPublic : Bool) :
    execute env (.serve ⟨search, some logs, bind, isPublic⟩) =
      openLog env logs >>= fun _ => execute env (.serve ⟨search, none, bind, isPublic⟩) := rfl

/-- A server without a log gives all clients the answers of the engine of its model, unless there is
no address to listen on or no model. -/
theorem run_serve_of_no_log (directory : String) (seed : UInt64) (overrides : LimitOverrides)
    (bind : String) (isPublic : Bool) :
    (execute (ClientWorld.environment addresses arrivals)
        (.serve ⟨⟨directory, some seed, overrides⟩, none, bind, isPublic⟩)).run.run clients =
      match Network.Address.listenOn bind isPublic (addresses bind) with
      | .error failure => (.error failure, clients)
      | .ok _ =>
        match (ModelFiles.ofStore clients.world.store directory).engine directory overrides
          seed with
        | .error failure => (.error failure, clients)
        | .ok (engine, state) =>
          (.ok (), { clients with
            answers := (Connection.serveAll engine.generateGuarded Frame.standardLimit arrivals
              (.fresh state)).1 }) := by
  refine (run_lift_bind _ _ clients).trans ?_
  show (ofResult (Network.Address.listenOn bind isPublic (addresses bind)) >>= _ :
    ExceptT Failure (StateM ClientWorld) Unit).run.run clients = _
  rw [run_ofResult_bind]
  cases Network.Address.listenOn bind isPublic (addresses bind) with
  | error failure => rfl
  | ok address =>
    show (_ >>= _ : ExceptT Failure (StateM ClientWorld) Unit).run.run clients = _
    rw [run_bind_eq, run_loadEngine]
    cases (ModelFiles.ofStore clients.world.store directory).engine directory overrides seed <;> rfl

/-- A server that has started gives all clients the answers of the engine of its model. -/
theorem run_serve {directory : String} {seed : UInt64} {overrides : LimitOverrides}
    {logs : Option String} {bind : String} {isPublic : Bool} {after : ClientWorld}
    (h : (execute (ClientWorld.environment addresses arrivals)
        (.serve ⟨⟨directory, some seed, overrides⟩, logs, bind, isPublic⟩)).run.run clients =
      (.ok (), after)) :
    ∃ engine state,
      (ModelFiles.ofStore (clients.afterLog addresses arrivals logs).world.store directory).engine
          directory overrides seed = .ok (engine, state) ∧
      after.answers =
        (Connection.serveAll engine.generateGuarded Frame.standardLimit arrivals
          (.fresh state)).1 := by
  have hstarted : (execute (ClientWorld.environment addresses arrivals)
      (.serve ⟨⟨directory, some seed, overrides⟩, none, bind, isPublic⟩)).run.run
        (clients.afterLog addresses arrivals logs) = (.ok (), after) := by
    cases logs with
    | none => exact h
    | some logs =>
      rw [execute_serve_of_log] at h
      obtain ⟨_, between, hlog, hserve⟩ := run_bind_eq_ok_iff.1 h
      rwa [ClientWorld.afterLog, hlog]
  rw [run_serve_of_no_log] at hstarted
  split at hstarted
  case h_1 => cases hstarted
  case h_2 =>
    split at hstarted
    case h_1 => cases hstarted
    case h_2 engine state hengine =>
      cases hstarted
      exact ⟨engine, state, hengine, rfl⟩

end

end CommandLine

/-! ### The first connection -/

namespace Connection

variable {σ : Type}

/-- The text in the first frame of the first client is answered with the empty response exactly if
the engine makes nothing of it, and otherwise with what the engine makes of it, unless this is too
long for a frame. -/
theorem exists_first_answer (engine : Engine σ) {limit : Nat} {received rest : Octets}
    {query : String} (hread : Frame.readText limit received = .ok (query, rest))
    (later : List Octets) (state : σ) :
    ∃ answer,
      (serveAll engine.generateGuarded limit (received :: later) (.fresh state)).1.head? =
        some answer ∧
      match (engine.generateText query state).1 with
      | .error _ => Frame.write (encode Response.empty.text) = .ok answer
      | .ok text =>
        Frame.write (encode Response.empty.text) ≠ .ok answer ∧
          ((encode text).length ≤ Frame.greatestLength → Frame.write (encode text) = .ok answer) ∧
          (Frame.greatestLength < (encode text).length → answer = []) := by
  refine ⟨(serve engine.generateGuarded limit received (.fresh state)).1, rfl, ?_⟩
  have hanswer : (serve engine.generateGuarded limit received (.fresh state)).1 =
      sent (responseOf (respond engine.generate limit received state).1) := by
    rw [(serve_guarded_eq_handle engine _).1]
    rfl
  rw [hanswer, generateText_of_readText engine hread state]
  cases hresult : (respond engine.generate limit received state).1 with
  | error failure => exact write_empty_eq_sent_iff.2 rfl
  | ok response =>
    obtain ⟨members, hmembers⟩ := evidences_of_respond hresult
    refine ⟨fun h => Response.text_ne_empty hmembers (write_empty_eq_sent_iff.1 h), ?_, ?_⟩
    · intro hfits
      exact write_text_eq_sent (by rwa [← response.length_encode_text])
    · intro hlong
      rw [response.length_encode_text] at hlong
      exact (sent_eq_nil hlong).1

end Connection

namespace CommandLine

/-- What is inferred is what the first client of a server is answered.

A server has loaded its model and started, and the first client sends evidence that is not too long
to be accepted, whatever follows it and whoever comes later.  If one search is run for the same
evidence, with the same seed and the same limits and on a model with the same files, then it
succeeds exactly if the answer to the client is not the empty response.  What is printed is the text
in the answer and the end of a line; only if the text is too long for a frame does the client get
nothing at all.  A search that fails prints nothing; it fails exactly on evidence that is not
accepted as a request or for which no program of the corpus can be drawn, and only on the former if
no overlap reaches `2 ^ 31`. -/
theorem infer_agrees_with_first_answer (directory : String) (seed : UInt64)
    (overrides : LimitOverrides) {evidence : String}
    (hevidence : (encode evidence).length ≤ Frame.standardLimit)
    (addresses : String → Option (List Network.Address)) (rest : Octets) (later : List Octets)
    (offline online after : ClientWorld) (logs : Option String) (bind : String)
    (isPublic : Bool) :
    let search : SearchArguments := ⟨directory, some seed, overrides⟩
    let arrivals := (Frame.header (encode evidence).length ++ encode evidence ++ rest) :: later
    let environment := ClientWorld.environment addresses arrivals
    let inferred := (execute environment (.infer search evidence)).run.run offline
    ModelFiles.ofStore (online.afterLog addresses arrivals logs).world.store directory =
        ModelFiles.ofStore offline.world.store directory →
      (execute environment (.serve ⟨search, logs, bind, isPublic⟩)).run.run online =
          (.ok (), after) →
        ∃ answer, after.answers.head? = some answer ∧
          (inferred.1 = .ok () ↔ Frame.write (encode Response.empty.text) ≠ .ok answer) ∧
          (inferred.1 = .ok () → ∃ text,
            inferred.2 = offline.printing (text ++ "\n") ∧
            ((encode text).length ≤ Frame.greatestLength →
              Frame.write (encode text) = .ok answer) ∧
            (Frame.greatestLength < (encode text).length → answer = [])) ∧
          (inferred.1 ≠ .ok () → inferred.2 = offline) ∧
          ∃ corpus, (ModelFiles.ofStore offline.world.store directory).corpus directory =
              .ok corpus ∧
            (inferred.1 = .ok () ↔ ∃ request, Request.ofText evidence = .ok request ∧
              corpus.CanDraw request.evidence) ∧
            (corpus.greatestOverlap < Word.bound31 →
              (inferred.1 = .ok () ↔ ∃ request, Request.ofText evidence = .ok request)) := by
  intro search arrivals environment inferred hfiles hserved
  obtain ⟨engine, state, hengine, hanswers⟩ := run_serve addresses arrivals online hserved
  rw [hfiles] at hengine
  have hinferred : inferred = _ := run_infer addresses arrivals offline hengine evidence
  have hread : Frame.readText Frame.standardLimit
      (Frame.header (encode evidence).length ++ encode evidence ++ rest) = .ok (evidence, rest) :=
    Frame.readText_write_of_le (Frame.write_of_le_standardLimit hevidence) hevidence rest
  obtain ⟨answer, hfirst, hanswer⟩ := Connection.exists_first_answer engine hread later state
  refine ⟨answer, by rw [hanswers, hfirst], ?_⟩
  obtain ⟨corpus, hcorpus⟩ := ModelFiles.exists_corpus_eq_ok hengine
  have haccepted := ModelFiles.exists_generateText_eq_ok_iff hengine hcorpus evidence
  have hrequest : corpus.greatestOverlap < Word.bound31 →
      ((∃ text, (engine.generateText evidence state).1 = .ok text) ↔
        ∃ request, Request.ofText evidence = .ok request) := fun hlt =>
    haccepted.trans (exists_congr fun request =>
      and_iff_left (ModelFiles.canDraw_of_corpus_eq_ok hcorpus hlt request.evidence))
  rw [hinferred]
  -- both sides tell what the engine makes of the evidence
  cases hmade : (engine.generateText evidence state).1 with
  | error failure =>
    simp only [hmade] at hanswer haccepted hrequest
    exact ⟨iff_of_false nofun (not_not.2 hanswer), nofun, fun _ => rfl, corpus, hcorpus,
      iff_of_false nofun (mt haccepted.2 nofun),
      fun hlt => iff_of_false nofun (mt (hrequest hlt).2 nofun)⟩
  | ok text =>
    simp only [hmade] at hanswer haccepted hrequest
    exact ⟨iff_of_true rfl hanswer.1, fun _ => ⟨text, rfl, hanswer.2⟩, fun h => absurd rfl h,
      corpus, hcorpus, iff_of_true rfl (haccepted.1 ⟨text, rfl⟩),
      fun hlt => iff_of_true rfl ((hrequest hlt).1 ⟨text, rfl⟩)⟩

/-! ### A model with one program -/

/-- A world in which nothing was printed and no client was answered, with the two files of a
model. -/
def ClientWorld.ofModel (config programs : Octets) : ClientWorld where
  world :=
    { store :=
        { directories := [["m"]]
          files := [(["m", "config.json"], config), (["m", "corpus.json"], programs)] }
      printed := [] }
  answers := []

/-- A world in which the model has one program, which makes no calls. -/
def idleWorld : ClientWorld :=
  .ofModel (encode ModelConfig.repeatingValue.compact) (encode "[[[\x7b\"_nodes\": []\x7d]]]")

/-- The files of a model are read from its directory. -/
theorem ofStore_ofModel (config programs : Octets) :
    ModelFiles.ofStore (ClientWorld.ofModel config programs).world.store "m" =
      ⟨none, .ok config, .ok programs⟩ := by
  have hpath : ∀ name ∈ [SearchSettings.fileName, Corpus.configName, Corpus.programsName],
      FilePath.ofText (FilePath.within "m" name) =
        .ok ⟨[.enter "m", .enter name], false⟩ := by
    decide +kernel
  rw [ModelFiles.ofStore, FileStore.isPresentAt, FileStore.readAt, FileStore.readAt,
    FileStore.readAt, hpath _ (by simp), hpath _ (by simp), hpath _ (by simp)]
  rfl

/-- The engine that searches with one draw for the one program that there is, which makes no
calls. -/
def idleEngine : Engine (Corpus.Session Random.Stream) where
  predictor :=
    (Corpus.corpusOf .repeating [Tree.calling []]).predictor Corpus.weightedChoice
  search := ⟨⟨1, 10, 10⟩, by decide⟩

/-- What this engine makes of no evidence. -/
def idleText : String :=
  "\x7b\n  \"evidences\": \x7b\x7d,\n  \"asts\": [\n    \x7b\n      \"_nodes\": [],\n" ++
    "      \"calls\": [],\n      \"count\": 1\n    \x7d\n  ]\n\x7d"

/-- The search draws the program once, whatever it weighs, and finds it. -/
theorem generateText_idleEngine :
    (idleEngine.generateText "\x7b\x7d" (.start (.ofSeed 0))).1 = .ok idleText := by
  have hdraw : (Corpus.corpusOf .repeating [Tree.calling []]).CanDraw .empty :=
    Corpus.canDraw_corpusOf_iff.2 ⟨_, List.mem_singleton_self _, by cbv⟩
  have houtcome := Corpus.outcome_corpusOf_singleton hdraw Corpus.picksPlaces_weightedChoice
    (Corpus.Session.isFaithful_start _ (Random.Stream.ofSeed 0)) (by decide)
  obtain ⟨run, hrun, -, hpool⟩ := idleEngine.search.sampleWithin_of_constant houtcome 0
  have hanswer : idleEngine.search.answer idleEngine.predictor .empty (.start (.ofSeed 0)) =
      (.ok (idleEngine.search.select run .empty), _) :=
    Search.answer_eq_ok_iff.2 ⟨run, hrun, rfl⟩
  have hrequest : Request.ofText "\x7b\x7d" = .ok ⟨.empty, .object []⟩ := by cbv
  simp only [Engine.generateText, Engine.parse_eq_ok hrequest, Engine.generate, hanswer,
    Search.select, hpool]
  cbv

/-- The model is loaded with its seed. -/
theorem engine_idleWorld :
    (ModelFiles.ofStore idleWorld.world.store "m").engine "m" ⟨some 1, none, none⟩ 0 =
      .ok (idleEngine, .start (.ofSeed 0)) := by
  rw [idleWorld, ofStore_ofModel]
  have hvalue : ModelConfig.ofValue true ModelConfig.repeatingValue = .ok .repeating := by cbv
  have hsaves : ModelConfig.savesVocabularies ModelConfig.repeatingValue = true := by cbv
  have hconfig : ModelConfig.ofFile (.ok (encode ModelConfig.repeatingValue.compact)) =
      .ok .repeating :=
    ModelConfig.ofFile_eq_ok_iff.2 ⟨_, ModelConfig.repeatingValue, rfl,
      Json.Value.ofOctets?_written
        (ModelConfig.isWritable_repeatingValue.mono (by decide)) .compact, hsaves ▸ hvalue⟩
  have htrees : CorpusFile.ofOctets? (encode "[[[\x7b\"_nodes\": []\x7d]]]") =
      some [Tree.calling []] := by
    cbv
  have hcorpus : Corpus.ofTrees .repeating [Tree.calling []] =
      .ok (Corpus.corpusOf .repeating [Tree.calling []]) := by
    cbv
  rw [ModelFiles.engine, ModelFiles.corpus, Corpus.load_eq_ok_iff.2
    ⟨.repeating, _, [Tree.calling []], hconfig, rfl, htrees, hcorpus⟩]
  rfl

/-- A search of one draw finds the program that makes no calls, for no evidence, and so does a
server whose client ends its message with a line. -/
theorem infer_agrees_idle :
    let search : SearchArguments := ⟨"m", some 0, some 1, none, none⟩
    let query := "\x7b\x7d"
    let rest : Octets := [0x0a]
    let addresses : String → Option (List Network.Address) :=
      fun _ => some [⟨.v4 127 0 0 1, 8084⟩]
    let environment := ClientWorld.environment addresses
      [Frame.header (encode query).length ++ encode query ++ rest]
    (encode query).length ≤ Frame.standardLimit ∧
      (execute environment (.infer search query)).run.run idleWorld =
        (.ok (), idleWorld.printing (idleText ++ "\n")) ∧
      ∃ after answer,
        (execute environment (.serve ⟨search, none, "localhost:8084", false⟩)).run.run idleWorld =
          (.ok (), after) ∧
        after.answers.head? = some answer ∧ Frame.write (encode idleText) = .ok answer := by
  intro search query rest addresses environment
  have hquery : (encode query).length ≤ Frame.standardLimit := by decide +kernel
  have hfits : (encode idleText).length ≤ Frame.greatestLength := by decide +kernel
  have htext : (idleEngine.generateText query (.start (.ofSeed 0))).1 = .ok idleText :=
    generateText_idleEngine
  have hlisten : Network.Address.listenOn "localhost:8084" false (addresses "localhost:8084") =
      .ok ⟨.v4 127 0 0 1, 8084⟩ := rfl
  have hinferred := run_infer addresses
    [Frame.header (encode query).length ++ encode query ++ rest] idleWorld engine_idleWorld query
  rw [htext] at hinferred
  have hserved := run_serve_of_no_log addresses
    [Frame.header (encode query).length ++ encode query ++ rest] idleWorld "m" 0
    ⟨some 1, none, none⟩ "localhost:8084" false
  rw [hlisten, engine_idleWorld] at hserved
  obtain ⟨answer, hfirst, -, hprinted, -⟩ := infer_agrees_with_first_answer "m" 0
    ⟨some 1, none, none⟩ hquery addresses rest [] idleWorld idleWorld _ none "localhost:8084" false
    rfl hserved
  rw [hinferred] at hprinted
  obtain ⟨printed, hworld, hframe, -⟩ := hprinted rfl
  have hsame : idleText = printed := by
    simpa using ClientWorld.printing_inj hworld
  rw [← hsame] at hframe
  exact ⟨hquery, hinferred, _, answer, hserved, hfirst, hframe hfits⟩

end CommandLine

end EvidenceSynthesis
