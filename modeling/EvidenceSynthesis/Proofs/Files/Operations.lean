import EvidenceSynthesis.Files.Store
import EvidenceSynthesis.Proofs.Evidence.Requests
import Mathlib

/-!
# Operations on a store

When the operations on files succeed, and what they do then.  Each of them needs paths that lead to
a place for a file: into a directory that is there, under a name that no directory has
(`FileStore.placeAt`).  Where there are such places, an operation succeeds unless it needs a file
and there is none.

What it does is told by the contents afterwards (`FileStore.content?_erase_eq`,
`FileStore.content?_put_eq`).  Directories stay what they are, so that paths lead to the same places
as before.
-/

namespace EvidenceSynthesis.FileStore

open Text (Octets)

variable {store : FileStore} {location : Location} {octets : Octets}

/-! ### Contents -/

theorem content?_erase_of_ne {other : Location} (h : other ≠ location) :
    (store.erase location).content? other = store.content? other := by
  have hlookup : ∀ files : List (Location × Octets),
      (files.filter fun entry => entry.1 != location).lookup other = files.lookup other := by
    intro files
    induction files with
    | nil => rfl
    | cons entry rest ih =>
      by_cases hentry : entry.1 = location
      · have hother : (other == entry.1) = false := by simpa [hentry] using h
        rw [List.filter_cons_of_neg (by simpa using hentry), ih, List.lookup_cons, hother]
      · rw [List.filter_cons_of_pos (by simpa using hentry), List.lookup_cons, List.lookup_cons, ih]
  exact hlookup store.files

theorem content?_put_of_ne {other : Location} (h : other ≠ location) :
    (store.put location octets).content? other = store.content? other := by
  have hlookup : ∀ files : List (Location × Octets),
      (files.map fun entry => if entry.1 = location then (location, octets) else entry).lookup
        other = files.lookup other := by
    intro files
    induction files with
    | nil => rfl
    | cons entry rest ih =>
      by_cases hentry : entry.1 = location
      · have hother : (other == entry.1) = false := by simpa [hentry] using h
        have hlocation : (other == location) = false := by simpa using h
        rw [List.map_cons, if_pos hentry, List.lookup_cons, List.lookup_cons, hother, hlocation, ih]
      · rw [List.map_cons, if_neg hentry, List.lookup_cons, List.lookup_cons, ih]
  unfold put
  split
  · exact hlookup store.files
  · have hnew : [(location, octets)].lookup other = none := by
      rw [List.lookup_cons, show (other == location) = false by simpa using h]
      rfl
    simp only [content?, List.lookup_append, hnew, Option.or_none]

/-- What a store holds once a file was removed, place by place. -/
theorem content?_erase_eq (store : FileStore) (location other : Location) :
    (store.erase location).content? other =
      if other = location then none else store.content? other := by
  by_cases h : other = location
  · rw [if_pos h, h, content?_erase]
  · rw [if_neg h, content?_erase_of_ne h]

/-- What a store holds once a file was written, place by place. -/
theorem content?_put_eq (store : FileStore) (location other : Location) (octets : Octets) :
    (store.put location octets).content? other =
      if other = location then some octets else store.content? other := by
  by_cases h : other = location
  · rw [if_pos h, h, content?_put]
  · rw [if_neg h, content?_put_of_ne h]

@[simp] theorem directories_erase (store : FileStore) (location : Location) :
    (store.erase location).directories = store.directories := rfl

@[simp] theorem directories_put (store : FileStore) (location : Location) (octets : Octets) :
    (store.put location octets).directories = store.directories := by
  unfold put
  split <;> rfl

/-! ### Places -/

/-- The place for a file to which the text of a path leads. -/
def placeAt (store : FileStore) (path : String) : Except FileError Location :=
  FilePath.ofText path >>= store.placeFor

/-- The content of the file to which the text of a path leads. -/
def readAt (store : FileStore) (path : String) : Except FileError Octets :=
  FilePath.ofText path >>= store.read

/-- What can be read under the text of a path. -/
def contentAt (store : FileStore) (path : String) : Option Octets :=
  (store.readAt path).toOption

/-- Whether the text of a path leads to anything. -/
def isPresentAt (store : FileStore) (path : String) : Bool :=
  match FilePath.ofText path with
  | .ok path => store.isPresent path
  | .error _ => false

/-- What is read at a place with or without a file. -/
def found : Option Octets → Except FileError Octets
  | some octets => .ok octets
  | none => .error .missing

@[simp] theorem toOption_found (content : Option Octets) : (found content).toOption = content := by
  cases content <;> rfl

/-- A path has a place exactly if it leads to one and names no directory. -/
theorem placeFor_eq_ok_iff {path : FilePath} :
    store.placeFor path = .ok location ↔
      store.locate path = .ok location ∧ path.namesDirectory = false ∧
        store.isDirectory location = false := by
  rw [placeFor, bind_eq_ok_iff]
  constructor
  · rintro ⟨found, hlocate, h⟩
    cases hnames : path.namesDirectory <;> cases hdirectory : store.isDirectory found <;>
      rw [hnames, hdirectory] at h <;> cases h
    exact ⟨hlocate, rfl, hdirectory⟩
  · rintro ⟨hlocate, hnames, hdirectory⟩
    refine ⟨location, hlocate, ?_⟩
    rw [hnames, hdirectory]
    rfl

/-- A file is found at its place. -/
theorem fileAt_eq_ok_iff {path : FilePath} :
    store.fileAt path = .ok (location, octets) ↔
      store.placeFor path = .ok location ∧ store.content? location = some octets := by
  rw [placeFor_eq_ok_iff, fileAt, bind_eq_ok_iff]
  constructor
  · rintro ⟨place, hlocate, h⟩
    cases hdirectory : store.isDirectory place <;> cases hcontent : store.content? place <;>
      cases hnames : path.namesDirectory <;> simp only [hdirectory, hcontent, hnames] at h <;>
      cases h
    exact ⟨⟨hlocate, rfl, hdirectory⟩, hcontent⟩
  · rintro ⟨⟨hlocate, hnames, hdirectory⟩, hcontent⟩
    refine ⟨location, hlocate, ?_⟩
    simp only [hdirectory, hcontent, hnames]
    rfl

theorem placeAt_eq_ok_iff {path : String} :
    store.placeAt path = .ok location ↔
      ∃ steps, FilePath.ofText path = .ok steps ∧ store.placeFor steps = .ok location :=
  bind_eq_ok_iff

/-- The file to which the text of a path leads. -/
theorem fileAt_ofText_iff {path : String} :
    (FilePath.ofText path >>= store.fileAt) = .ok (location, octets) ↔
      store.placeAt path = .ok location ∧ store.content? location = some octets := by
  rw [bind_eq_ok_iff, placeAt_eq_ok_iff]
  simp only [fileAt_eq_ok_iff]
  exact ⟨fun ⟨steps, htext, hsteps, hcontent⟩ => ⟨⟨steps, htext, hsteps⟩, hcontent⟩,
    fun ⟨⟨steps, htext, hsteps⟩, hcontent⟩ => ⟨steps, htext, hsteps, hcontent⟩⟩

/-- A file can be read exactly if there is one at the place of its path. -/
theorem readAt_eq_ok_iff {path : String} :
    store.readAt path = .ok octets ↔
      ∃ location, store.placeAt path = .ok location ∧ store.content? location = some octets := by
  have hread : store.readAt path = (FilePath.ofText path >>= store.fileAt).map Prod.snd := by
    rw [readAt]
    cases FilePath.ofText path <;> rfl
  rw [hread]
  constructor
  · intro h
    cases hfile : FilePath.ofText path >>= store.fileAt with
    | error fault =>
      rw [hfile] at h
      cases h
    | ok file =>
      rw [hfile] at h
      cases h
      exact ⟨file.1, fileAt_ofText_iff.1 hfile⟩
  · rintro ⟨location, h⟩
    rw [fileAt_ofText_iff.2 h]
    rfl

theorem contentAt_eq_some_iff {path : String} :
    store.contentAt path = some octets ↔ store.readAt path = .ok octets := by
  rw [contentAt]
  cases store.readAt path <;> simp [Except.toOption]

/-- At a place without a file there is nothing to be read. -/
theorem readAt_of_placeAt {path : String} (h : store.placeAt path = .ok location) :
    store.readAt path = found (store.content? location) := by
  obtain ⟨steps, htext, hsteps⟩ := placeAt_eq_ok_iff.1 h
  obtain ⟨hlocate, hnames, hdirectory⟩ := placeFor_eq_ok_iff.1 hsteps
  cases hcontent : store.content? location with
  | some octets => exact readAt_eq_ok_iff.2 ⟨location, h, hcontent⟩
  | none =>
    rw [readAt, htext]
    simp only [bind, Except.bind, read, fileAt, hlocate, hdirectory, hcontent]
    rfl

/-- What is a place for a file is taken by a file alone. -/
theorem isPresentAt_of_placeAt {path : String} (h : store.placeAt path = .ok location) :
    store.isPresentAt path = (store.content? location).isSome := by
  obtain ⟨steps, htext, hsteps⟩ := placeAt_eq_ok_iff.1 h
  obtain ⟨hlocate, -, hdirectory⟩ := placeFor_eq_ok_iff.1 hsteps
  simp only [isPresentAt, htext, isPresent, hasDirectory, hlocate, hdirectory, Bool.false_or]
  cases hcontent : store.content? location with
  | some octets => rw [fileAt_eq_ok_iff.2 ⟨hsteps, hcontent⟩]; rfl
  | none =>
    simp only [bind, Except.bind, fileAt, hlocate, hdirectory, hcontent]
    rfl

/-- Where a path leads to nothing there is no content. -/
theorem contentAt_of_not_isPresentAt {path : String} (h : store.isPresentAt path = false) :
    store.contentAt path = none := by
  cases hcontent : store.contentAt path with
  | none => rfl
  | some octets =>
    obtain ⟨location, hplace, hfound⟩ := readAt_eq_ok_iff.1 (contentAt_eq_some_iff.1 hcontent)
    rw [isPresentAt_of_placeAt hplace, hfound] at h
    cases h

theorem contentAt_empty (path : String) : empty.contentAt path = none := by
  cases hcontent : empty.contentAt path with
  | none => rfl
  | some octets =>
    obtain ⟨location, -, hfound⟩ := readAt_eq_ok_iff.1 (contentAt_eq_some_iff.1 hcontent)
    cases hfound

/-! ### Operations -/

theorem run_size (store : FileStore) (path : String) :
    (access.size path).run store = ((store.readAt path).map List.length, store) := rfl

/-- A change that succeeds leaves its result in the store. -/
theorem run_change_of_ok {step : FileStore → Except FileError FileStore} {after : FileStore}
    (h : step store = .ok after) : (change step).run store = (.ok (), after) := by
  unfold change
  simp only [StateT.run, modifyGet, MonadStateOf.modifyGet, StateT.modifyGet, h]
  rfl

/-- A change that fails leaves the store as it was. -/
theorem run_change_of_error {step : FileStore → Except FileError FileStore} {error : FileError}
    (h : step store = .error error) : (change step).run store = (.error error, store) := by
  unfold change
  simp only [StateT.run, modifyGet, MonadStateOf.modifyGet, StateT.modifyGet, h]
  rfl

theorem run_change_eq_ok_iff {step : FileStore → Except FileError FileStore} {after : FileStore} :
    (change step).run store = (.ok (), after) ↔ step store = .ok after := by
  refine ⟨fun h => ?_, run_change_of_ok⟩
  cases hstep : step store with
  | error error =>
    rw [run_change_of_error hstep] at h
    cases h
  | ok changed =>
    rw [run_change_of_ok hstep] at h
    cases h
    rfl

section

variable {path : String} {after : FileStore}

/-- A write that succeeds puts its octets at the place of the path. -/
theorem run_write_eq_ok_iff :
    (access.write path octets).run store = (.ok (), after) ↔
      ∃ location, store.placeAt path = .ok location ∧ after = store.put location octets := by
  refine run_change_eq_ok_iff.trans ?_
  simp only [bind_eq_ok_iff, placeAt_eq_ok_iff, write]
  constructor
  · rintro ⟨steps, htext, location, hsteps, h⟩
    exact ⟨location, ⟨steps, htext, hsteps⟩, (Except.ok.inj h).symm⟩
  · rintro ⟨location, ⟨steps, htext, hsteps⟩, rfl⟩
    exact ⟨steps, htext, location, hsteps, rfl⟩

/-- A removal that succeeds erases the file at the place of the path. -/
theorem run_remove_eq_ok_iff :
    (access.remove path).run store = (.ok (), after) ↔
      ∃ location octets, store.placeAt path = .ok location ∧
        store.content? location = some octets ∧ after = store.erase location := by
  refine run_change_eq_ok_iff.trans ?_
  have hremove : (FilePath.ofText path >>= store.remove) =
      (FilePath.ofText path >>= store.fileAt) >>= fun file => .ok (store.erase file.1) :=
    (bind_assoc _ _ _).symm
  show FilePath.ofText path >>= store.remove = _ ↔ _
  rw [hremove, bind_eq_ok_iff]
  constructor
  · rintro ⟨⟨location, octets⟩, hfile, h⟩
    obtain ⟨hplace, hcontent⟩ := fileAt_ofText_iff.1 hfile
    exact ⟨location, octets, hplace, hcontent, (Except.ok.inj h).symm⟩
  · rintro ⟨location, octets, hplace, hcontent, rfl⟩
    exact ⟨(location, octets), fileAt_ofText_iff.2 ⟨hplace, hcontent⟩, rfl⟩

/-- A renaming that succeeds moves the content from one place to the other. -/
theorem run_rename_eq_ok_iff {target : String} :
    (access.rename path target).run store = (.ok (), after) ↔
      ∃ location octets place, store.placeAt path = .ok location ∧
        store.content? location = some octets ∧ store.placeAt target = .ok place ∧
          after = (store.erase location).put place octets := by
  refine run_change_eq_ok_iff.trans ?_
  simp only [bind_eq_ok_iff, rename]
  constructor
  · rintro ⟨steps, htext, others, hothers, ⟨location, octets⟩, hfile, place, hplaceFor, h⟩
    obtain ⟨hplace, hcontent⟩ := fileAt_ofText_iff.1 (bind_eq_ok_iff.2 ⟨steps, htext, hfile⟩)
    exact ⟨location, octets, place, hplace, hcontent,
      placeAt_eq_ok_iff.2 ⟨others, hothers, hplaceFor⟩, (Except.ok.inj h).symm⟩
  · rintro ⟨location, octets, place, hplace, hcontent, htarget, rfl⟩
    obtain ⟨steps, htext, hfile⟩ := bind_eq_ok_iff.1 (fileAt_ofText_iff.2 ⟨hplace, hcontent⟩)
    obtain ⟨others, hothers, hplaceFor⟩ := placeAt_eq_ok_iff.1 htarget
    exact ⟨steps, htext, others, hothers, (location, octets), hfile, place, hplaceFor, rfl⟩

end

end EvidenceSynthesis.FileStore
