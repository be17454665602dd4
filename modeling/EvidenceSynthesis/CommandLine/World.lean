import EvidenceSynthesis.CommandLine.Run
import EvidenceSynthesis.Files.Store

/-!
# Worlds of files

Surroundings in which commands run as functions: a store of files takes the place of the
file system, and what is printed is kept.
-/

namespace EvidenceSynthesis.CommandLine

/-- A store of files, and what was printed, the last text first.  Nobody is reached over
connections. -/
structure World where
  store : FileStore
  printed : List String

namespace World

/-- A step on the store. -/
def onStore {α : Type} (step : StateM FileStore α) : StateM World α :=
  modifyGet fun world =>
    let (a, store) := step.run world.store
    (a, { world with store })

/-- The operations on the files of a world. -/
def files : FileAccess (StateM World) where
  isPresent path := onStore (FileStore.access.isPresent path)
  size path := onStore (FileStore.access.size path)
  read path := onStore (FileStore.access.read path)
  write path octets := onStore (FileStore.access.write path octets)
  ensure path := onStore (FileStore.access.ensure path)
  remove path := onStore (FileStore.access.remove path)
  rename source target := onStore (FileStore.access.rename source target)
  createDirectories path := onStore (FileStore.access.createDirectories path)

/-- The surroundings of a program in a world; every fresh seed is zero. -/
def environment : Environment (StateM World) where
  files := files
  variableContent _ := pure none
  freshSeed := pure 0
  print s := modify fun world => { world with printed := s :: world.printed }
  report _ := pure ()
  resolve s := pure (Network.Address.numeric? s)
  serve address _ _ _ _ := pure (.error (.of s!"Failed to bind {address.text}"))
  exchange address _ _ := pure (.error (.of s!"connect to AST server at {address}"))

end World

end EvidenceSynthesis.CommandLine
