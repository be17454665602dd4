import EvidenceSynthesis.Files.Access

/-!
# Rotation of logs

A log that has grown to its bound is put aside: it becomes the first backup, every
backup takes the next number, and the oldest one is removed.  The backups are moved
from the last to the first, so that none is overwritten.
-/

namespace EvidenceSynthesis.Rotation

/-- The bound of a log in octets. -/
def standardBound : Nat := 100000000

/-- How many backups are kept. -/
def standardBackups : Nat := 9

/-- The path of a backup. -/
def backupPath (path : String) (number : Nat) : String :=
  s!"{path}.{number}"

variable {m : Type → Type} [Monad m]

/-- Removes a file if it is there. -/
def removeIfPresent (files : FileAccess m) (path : String) : ExceptT FileError m Unit := do
  if ← files.isPresent path then
    ExceptT.mk (files.remove path)

/-- Renames a file if it is there. -/
def renameIfPresent (files : FileAccess m) (source target : String) :
    ExceptT FileError m Unit := do
  if ← files.isPresent source then
    ExceptT.mk (files.rename source target)

/-- Moves the backups with the numbers from `count` down to one up by one. -/
def shift (files : FileAccess m) (path : String) : Nat → ExceptT FileError m Unit
  | 0 => pure ()
  | count + 1 => do
    renameIfPresent files (backupPath path (count + 1)) (backupPath path (count + 2))
    shift files path count

/-- Puts a log aside and keeps a number of backups. -/
def putAside (files : FileAccess m) (path : String) : Nat → ExceptT FileError m Unit
  | 0 => ExceptT.mk (files.remove path)
  | backups + 1 => do
    removeIfPresent files (backupPath path (backups + 1))
    shift files path backups
    ExceptT.mk (files.rename path (backupPath path 1))

/-- Puts a log aside if it has grown to its bound; says whether it has. -/
def rotate (files : FileAccess m) (path : String) (bound backups : Nat) :
    ExceptT FileError m Bool := do
  let found : Except FileError Nat ← ExceptT.lift (files.size path)
  match found with
  | .error .missing => return false
  | .error error => throw error
  | .ok size =>
    if size < bound then return false
    putAside files path backups
    return true

end EvidenceSynthesis.Rotation
