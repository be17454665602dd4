import EvidenceSynthesis.Logs.Rotation
import EvidenceSynthesis.Proofs.Files.LongerNames
import Mathlib

/-!
# Slots of a log

A log and its backups are the slots of one directory, numbered from zero.  Where a slot is, and why
there may be none under a number, depends on the directories alone (`Rotation.Layout`).  The
operations on files thus act on the slots as updates of a family of contents: a file that is removed
leaves its slot empty (`Rotation.Layout.leaves_of_remove`), and one that is renamed leaves one slot
for another (`Rotation.Layout.leaves_of_rename`).
-/

namespace EvidenceSynthesis.Rotation

open Text (Octets)
open FileStore (access found)

/-! ### Paths of slots -/

/-- The path of the log, and those of its backups. -/
def slotPath (path : String) : ℕ → String
  | 0 => path
  | number + 1 => backupPath path (number + 1)

/-- What the path of a slot has behind that of the log. -/
def slotSuffix : ℕ → String
  | 0 => ""
  | number + 1 => "." ++ (number + 1).repr

theorem slotPath_eq (path : String) (number : ℕ) :
    slotPath path number = path ++ slotSuffix number := by
  cases number with
  | zero => exact String.append_empty.symm
  | succ number =>
    show toString path ++ toString "." ++ toString (number + 1) = _
    exact String.append_assoc

/-- The suffix of a slot stays in the log's directory. -/
theorem slash_not_mem_slotSuffix (number : ℕ) : '/' ∉ (slotSuffix number).toList := by
  cases number with
  | zero => simp [slotSuffix]
  | succ number =>
    have hdigits : '/' ∉ (number + 1).repr.toList := by
      rw [Nat.toList_repr]
      intro hmem
      have hdigit := Nat.isDigit_of_mem_toDigits (by decide) (by decide) hmem
      exact absurd hdigit (by decide)
    rw [slotSuffix, String.toList_append]
    exact List.not_mem_append (by decide) hdigits

theorem slotSuffix_succ_ne (number : ℕ) : slotSuffix (number + 1) ≠ slotSuffix 0 :=
  fun h => absurd (String.append_eq_empty_iff.1 h).1 (by decide)

/-- Slots are told apart by their suffixes. -/
theorem slotSuffix_injective : Function.Injective slotSuffix := by
  intro m n h
  cases m with
  | zero =>
    cases n with
    | zero => rfl
    | succ n => exact absurd h.symm (slotSuffix_succ_ne n)
  | succ m =>
    cases n with
    | zero => exact absurd h (slotSuffix_succ_ne m)
    | succ n => exact Nat.repr_injective ((String.append_right_inj ".").1 h)

/-! ### Places of slots -/

/-- Where the slots of a log are, as long as the directories are these. -/
structure Layout (path : String) (directories : List Location) where
  slot : ℕ → Except FileError Location
  eq_of_slot : ∀ {m n location}, slot m = .ok location → slot n = .ok location → m = n
  placeAt_eq : ∀ {store : FileStore}, store.directories = directories → ∀ number,
    store.placeAt (slotPath path number) = slot number
  readAt_eq : ∀ {store : FileStore}, store.directories = directories → ∀ number,
    store.readAt (slotPath path number) =
      slot number >>= fun location => found (store.content? location)

/-- Slots are laid out where there is a place for the log. -/
theorem exists_layout {store : FileStore} {path : String} {location : Location}
    (h : store.placeAt path = .ok location) : Nonempty (Layout path store.directories) := by
  obtain ⟨place, hinjective, hplaces⟩ := FileStore.exists_places h
  have hslots := fun number => hplaces (slotSuffix number) (slash_not_mem_slotSuffix number)
  have hplace : ∀ {number location}, store.placeAt (slotPath path number) = .ok location →
      location = place (slotSuffix number) := by
    intro number location hslot
    rw [slotPath_eq] at hslot
    exact (hslots number).1 location hslot
  refine ⟨⟨fun number => store.placeAt (slotPath path number), fun hm hn => ?_,
    fun hlater number => ?_, fun hlater number => ?_⟩⟩
  · exact slotSuffix_injective (hinjective ((hplace hm).symm.trans (hplace hn)))
  · rw [slotPath_eq]
    exact ((hslots number).2 _ hlater).1
  · rw [slotPath_eq]
    rw [((hslots number).2 _ hlater).2, ((hslots number).2 _ hlater).1]

namespace Layout

variable {path : String} {directories : List Location} (layout : Layout path directories)
variable {store after later : FileStore} {m n : ℕ} {location : Location} {octets : Octets}

/-- The contents of the slots. -/
def logs (store : FileStore) (number : ℕ) : Option Octets :=
  (layout.slot number).toOption.bind store.content?

/-- The log of a slot is the content at its place. -/
theorem logs_of_slot (h : layout.slot n = .ok location) :
    layout.logs store n = store.content? location := by
  rw [logs, h]
  rfl

/-- A slot is read as its content says. -/
theorem readAt_congr (hstore : store.directories = directories)
    (hlater : later.directories = directories) (h : layout.logs later n = layout.logs store n) :
    later.readAt (slotPath path n) = store.readAt (slotPath path n) := by
  rw [layout.readAt_eq hstore, layout.readAt_eq hlater]
  cases hslot : layout.slot n with
  | error fault => rfl
  | ok location =>
    rw [logs_of_slot layout hslot, logs_of_slot layout hslot] at h
    simp only [bind, Except.bind, h]

/-- What can be read under the path of a slot is its log. -/
theorem contentAt_eq (hstore : store.directories = directories) (number : ℕ) :
    store.contentAt (slotPath path number) = layout.logs store number := by
  rw [FileStore.contentAt, layout.readAt_eq hstore, logs]
  cases layout.slot number with
  | error fault => rfl
  | ok location => exact FileStore.toOption_found _

theorem logs_of_not_isPresentAt (hstore : store.directories = directories)
    (h : store.isPresentAt (slotPath path n) = false) : layout.logs store n = none := by
  rw [← layout.contentAt_eq hstore, FileStore.contentAt_of_not_isPresentAt h]

/-! ### Operations on slots -/

/-- What an operation on slots leaves: contents of the slots, and all else as it was. -/
structure Leaves (store : FileStore) (logs : ℕ → Option Octets) (after : FileStore) : Prop where
  directories : after.directories = store.directories
  logs_eq : layout.logs after = logs
  content? : ∀ location, (∀ number, layout.slot number ≠ .ok location) →
    after.content? location = store.content? location

theorem Leaves.refl (store : FileStore) : layout.Leaves store (layout.logs store) store :=
  ⟨rfl, rfl, fun _ _ => rfl⟩

variable {layout}

/-- What is left after two steps is what the second leaves. -/
theorem Leaves.trans {between : FileStore} {logs others : ℕ → Option Octets}
    (h : layout.Leaves store logs between) (hnext : layout.Leaves between others after) :
    layout.Leaves store others after :=
  ⟨hnext.directories.trans h.directories, hnext.logs_eq, fun location hlocation =>
    (hnext.content? location hlocation).trans (h.content? location hlocation)⟩

/-- Where the slots above a number are left as they were, so is all that lies outside of the
others. -/
theorem Leaves.content?_of_ne {logs : ℕ → Option Octets} {count : ℕ}
    (hstore : store.directories = directories) (h : layout.Leaves store logs after)
    (hlogs : ∀ number, count < number → logs number = layout.logs store number)
    (hne : ∀ number ≤ count, store.placeAt (slotPath path number) ≠ .ok location) :
    after.content? location = store.content? location := by
  by_cases hslot : ∃ number, layout.slot number = .ok location
  · obtain ⟨number, hslot⟩ := hslot
    have hnumber : count < number := by
      by_contra hle
      exact hne number (not_lt.1 hle) ((layout.placeAt_eq hstore number).trans hslot)
    rw [← layout.logs_of_slot hslot, ← layout.logs_of_slot hslot, h.logs_eq, hlogs number hnumber]
  · exact h.content? location (not_exists.1 hslot)

/-- A change at the place of a slot is a change of this slot. -/
theorem leaves_update {content : Option Octets} (hslot : layout.slot n = .ok location)
    (hdirectories : after.directories = store.directories)
    (h : ∀ other, after.content? other =
      if other = location then content else store.content? other) :
    layout.Leaves store (Function.update (layout.logs store) n content) after := by
  refine ⟨hdirectories, funext fun number => ?_, fun other hother => ?_⟩
  · by_cases hnumber : number = n
    · rw [hnumber, Function.update_self, layout.logs_of_slot hslot, h, if_pos rfl]
    · rw [Function.update_of_ne hnumber]
      cases hother : layout.slot number with
      | error fault => simp [logs, hother, Except.toOption]
      | ok other =>
        have hne : other ≠ location := fun heq =>
          hnumber (layout.eq_of_slot (heq ▸ hother) hslot)
        rw [layout.logs_of_slot hother, layout.logs_of_slot hother, h, if_neg hne]
  · have hne : other ≠ location := fun heq => hother n (heq ▸ hslot)
    rw [h, if_neg hne]

/-- Erasing the file of a slot leaves the other logs. -/
theorem leaves_erase (store : FileStore) (hslot : layout.slot n = .ok location) :
    layout.Leaves store (Function.update (layout.logs store) n none) (store.erase location) :=
  leaves_update hslot (store.directories_erase location) (store.content?_erase_eq location)

theorem leaves_put (store : FileStore) (octets : Octets) (hslot : layout.slot n = .ok location) :
    layout.Leaves store (Function.update (layout.logs store) n (some octets))
      (store.put location octets) :=
  leaves_update hslot (store.directories_put location octets)
    (store.content?_put_eq location · octets)

variable (hstore : store.directories = directories)

include hstore

/-- A write to a slot that succeeds sets its log alone. -/
theorem leaves_of_write (h : (access.write (slotPath path n) octets).run store = (.ok (), after)) :
    layout.Leaves store (Function.update (layout.logs store) n (some octets)) after := by
  obtain ⟨location, hplace, rfl⟩ := FileStore.run_write_eq_ok_iff.1 h
  rw [layout.placeAt_eq hstore] at hplace
  exact leaves_put store octets hplace

theorem leaves_of_remove (h : (access.remove (slotPath path n)).run store = (.ok (), after)) :
    layout.Leaves store (Function.update (layout.logs store) n none) after := by
  obtain ⟨location, octets, hplace, -, rfl⟩ := FileStore.run_remove_eq_ok_iff.1 h
  rw [layout.placeAt_eq hstore] at hplace
  exact leaves_erase store hplace

/-- A renaming of slots that succeeds moves one log and leaves the others. -/
theorem leaves_of_rename
    (h : (access.rename (slotPath path m) (slotPath path n)).run store = (.ok (), after)) :
    layout.Leaves store
      (Function.update (Function.update (layout.logs store) m none) n (layout.logs store m))
      after := by
  obtain ⟨location, octets, place, hplace, hcontent, htarget, rfl⟩ :=
    FileStore.run_rename_eq_ok_iff.1 h
  rw [layout.placeAt_eq hstore] at hplace htarget
  have herase := leaves_erase store hplace
  have hput := leaves_put (store.erase location) octets htarget
  rw [herase.logs_eq, ← hcontent, ← layout.logs_of_slot hplace] at hput
  exact herase.trans hput

end Layout

end EvidenceSynthesis.Rotation
