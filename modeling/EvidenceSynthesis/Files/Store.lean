import EvidenceSynthesis.Files.Access
import EvidenceSynthesis.Files.Path

/-!
# File stores

A tree of directories and files as a value, and the operations on files as functions
from one store to the next.  A path is followed step by step, and each step starts from a
directory.
-/

namespace EvidenceSynthesis

open Text (Octets)

/-- The names on the way from the root to a directory or a file. -/
abbrev Location := List String

/-- Directories and files. -/
structure FileStore where
  /-- The directories other than the root. -/
  directories : List Location
  files : List (Location × Octets)

namespace FileStore

/-- The store with nothing but the root. -/
def empty : FileStore := ⟨[], []⟩

/-! ### Locations -/

/-- The content of a file. -/
def content? (store : FileStore) (location : Location) : Option Octets :=
  store.files.lookup location

/-- Whether there is a directory at a location. -/
def isDirectory (store : FileStore) (location : Location) : Bool :=
  location.isEmpty || store.directories.contains location

/-- Whether there is a file at a location. -/
def isFile (store : FileStore) (location : Location) : Bool :=
  (store.content? location).isSome

/-- The store without the file at a location. -/
def erase (store : FileStore) (location : Location) : FileStore :=
  { store with files := store.files.filter fun entry => entry.1 != location }

/-- The store in which a file has a given content. -/
def put (store : FileStore) (location : Location) (octets : Octets) : FileStore :=
  if store.isFile location then
    { store with files := store.files.map fun entry =>
        if entry.1 = location then (location, octets) else entry }
  else
    { store with files := store.files ++ [(location, octets)] }

/-! ### Paths -/

/-- Why nothing can be looked for at a location. -/
def enterFault? (store : FileStore) (location : Location) : Option FileError :=
  if store.isDirectory location then none
  else if store.isFile location then some .notADirectory
  else some .missing

/-- Where a step leads to. -/
def move (location : Location) : PathStep → Except FileError Location
  | .stay => .ok location
  | .back => .ok location.dropLast
  | .enter name =>
    if FilePath.nameBound < name.utf8ByteSize then .error .nameTooLong
    else .ok (location ++ [name])

/-- Where steps lead to. -/
def follow (store : FileStore) (location : Location) : List PathStep → Except FileError Location
  | [] => .ok location
  | step :: rest =>
    match store.enterFault? location with
    | some fault => .error fault
    | none =>
      match move location step with
      | .error fault => .error fault
      | .ok next => store.follow next rest

/-- Where a path leads to. -/
def locate (store : FileStore) (path : FilePath) : Except FileError Location :=
  store.follow [] path.steps

/-- Whether a path leads to a directory. -/
def hasDirectory (store : FileStore) (path : FilePath) : Bool :=
  match store.locate path with
  | .ok location => store.isDirectory location
  | .error _ => false

/-- The location and the content of the file that a path leads to. -/
def fileAt (store : FileStore) (path : FilePath) : Except FileError (Location × Octets) := do
  let location ← store.locate path
  if store.isDirectory location then throw .isDirectory
  let some octets := store.content? location | throw .missing
  if path.namesDirectory then throw .notADirectory
  return (location, octets)

/-- The location for a file to which a path is to lead. -/
def placeFor (store : FileStore) (path : FilePath) : Except FileError Location := do
  let location ← store.locate path
  if path.namesDirectory || store.isDirectory location then throw .isDirectory
  return location

/-- Whether a path leads to anything. -/
def isPresent (store : FileStore) (path : FilePath) : Bool :=
  store.hasDirectory path || (store.fileAt path).isOk

/-- The content of a file. -/
def read (store : FileStore) (path : FilePath) : Except FileError Octets :=
  (store.fileAt path).map Prod.snd

/-- Gives a file a content. -/
def write (store : FileStore) (path : FilePath) (octets : Octets) :
    Except FileError FileStore := do
  return store.put (← store.placeFor path) octets

/-- Adds an empty file where there is none. -/
def ensure (store : FileStore) (path : FilePath) : Except FileError FileStore := do
  let location ← store.placeFor path
  return if store.isFile location then store else store.put location []

/-- Takes a file away. -/
def remove (store : FileStore) (path : FilePath) : Except FileError FileStore := do
  return store.erase (← store.fileAt path).1

/-- Puts a file under another path. -/
def rename (store : FileStore) (source target : FilePath) : Except FileError FileStore := do
  let (location, octets) ← store.fileAt source
  return (store.erase location).put (← store.placeFor target) octets

/-- Adds a directory to the one around it. -/
def createDirectory (store : FileStore) (path : FilePath) : Except FileError FileStore := do
  let location ← store.locate path
  if store.isDirectory location || store.isFile location then throw .alreadyPresent
  return { store with directories := store.directories ++ [location] }

/-- Makes sure that a directory is there, within one that is. -/
def ensureDirectory (store : FileStore) (path : FilePath) :
    Except FileError Unit × FileStore :=
  match store.createDirectory path with
  | .ok store => (.ok (), store)
  | .error .alreadyPresent =>
    (if store.hasDirectory path then .ok () else .error .alreadyPresent, store)
  | .error error => (.error error, store)

/-- Makes sure that the first of some directories is there, where each lies within the
next one. -/
def ensureDirectories (store : FileStore) : List FilePath → Except FileError Unit × FileStore
  | [] => (.ok (), store)
  | path :: around =>
    match store.ensureDirectory path with
    | (.error .missing, store) =>
      match store.ensureDirectories around with
      | (.ok (), store) => store.ensureDirectory path
      | failed => failed
    | result => result

/-! ### Access -/

/-- A change of the store, which stays as it is if the change fails. -/
def change (step : FileStore → Except FileError FileStore) :
    StateM FileStore (Except FileError Unit) :=
  modifyGet fun store =>
    match step store with
    | .ok store => (.ok (), store)
    | .error error => (.error error, store)

/-- The operations on files within a store. -/
def access : FileAccess (StateM FileStore) where
  isPresent path := do
    let store ← get
    return match FilePath.ofText path with
      | .ok path => store.isPresent path
      | .error _ => false
  size path := do
    let store ← get
    return (FilePath.ofText path >>= store.read).map List.length
  read path := do
    let store ← get
    return FilePath.ofText path >>= store.read
  write path octets := change fun store => do store.write (← FilePath.ofText path) octets
  ensure path := change fun store => do store.ensure (← FilePath.ofText path)
  remove path := change fun store => do store.remove (← FilePath.ofText path)
  rename source target := change fun store => do
    store.rename (← FilePath.ofText source) (← FilePath.ofText target)
  createDirectories path := modifyGet fun store =>
    match FilePath.ofText path with
    | .ok path => store.ensureDirectories (path :: path.around)
    | .error error => (.error error, store)

/-! ### Contents -/

/-- Writing a file makes no directory and removes none. -/
@[simp] theorem isDirectory_put (store : FileStore) (location : Location) (octets : Octets) :
    (store.put location octets).isDirectory = store.isDirectory := by
  unfold put
  split <;> rfl

/-- Removing a file makes no directory and removes none. -/
@[simp] theorem isDirectory_erase (store : FileStore) (location : Location) :
    (store.erase location).isDirectory = store.isDirectory :=
  rfl

/-- A file that was removed has no content. -/
@[simp] theorem content?_erase (store : FileStore) (location : Location) :
    (store.erase location).content? location = none := by
  simp only [content?, erase, List.lookup_eq_none_iff]
  intro entry h
  exact bne_iff_ne.2 (Ne.symm (bne_iff_ne.1 (List.mem_filter.1 h).2))

/-- Replacing the content of a listed file is seen where the file is looked up. -/
theorem lookup_replaced {files : List (Location × Octets)} {location : Location}
    (octets : Octets) (h : (files.lookup location).isSome) :
    (files.map fun entry => if entry.1 = location then (location, octets) else entry).lookup
      location = some octets := by
  induction files with
  | nil => cases h
  | cons entry rest ih =>
    rw [List.map_cons]
    by_cases he : entry.1 = location
    · rw [if_pos he, List.lookup_cons_self]
    · have hb : (location == entry.1) = false := by simpa using Ne.symm he
      rw [List.lookup_cons, hb] at h
      rw [if_neg he, List.lookup_cons, hb]
      exact ih h

/-- A file has the content that it was given. -/
@[simp] theorem content?_put (store : FileStore) (location : Location) (octets : Octets) :
    (store.put location octets).content? location = some octets := by
  unfold put
  split
  case isTrue h => exact lookup_replaced octets h
  case isFalse h =>
    have hn : store.files.lookup location = none := Option.not_isSome_iff_eq_none.1 h
    simp only [content?, List.lookup_append, hn, Option.none_or, List.lookup_cons_self]

end FileStore

end EvidenceSynthesis
