import EvidenceSynthesis.Proofs.Logs.Slots
import Mathlib

/-!
# Rotations of a log

When a log is put aside, what is in its slots moves up by one, and the last slot is emptied first.
The moves are made from the last slot to the first, each into a slot that is free by then, so that
none of them overwrites a content that is still needed (`Rotation.leaves_of_shift`).

A rotation that succeeds has either done nothing or put the log aside (`Rotation.rotate_cases`,
`Rotation.isPutAside_of_putAside`).  Where there are places for all slots it does succeed
(`Rotation.exists_putAside`).
-/

namespace EvidenceSynthesis

open Text (Octets)

/-- The second step is taken where the first one succeeds. -/
theorem run_bind_eq {ε σ α β : Type} (step : ExceptT ε (StateM σ) α)
    (next : α → ExceptT ε (StateM σ) β) (before : σ) :
    (step >>= next).run.run before =
      match step.run.run before with
      | (.ok a, between) => (next a).run.run between
      | (.error error, between) => (.error error, between) := by
  simp only [ExceptT.run_bind, StateT.run_bind]
  show (match step.run.run before with
    | (result, between) => _) = _
  rcases step.run.run before with ⟨_ | _, _⟩ <;> rfl

/-- Two steps succeed when the first one does and the second one does after it. -/
theorem run_bind_eq_ok_iff {ε σ α β : Type} {step : ExceptT ε (StateM σ) α}
    {next : α → ExceptT ε (StateM σ) β} {before after : σ} {b : β} :
    (step >>= next).run.run before = (.ok b, after) ↔
      ∃ a between, step.run.run before = (.ok a, between) ∧
        (next a).run.run between = (.ok b, after) := by
  rw [run_bind_eq]
  rcases step.run.run before with ⟨error | a, between⟩
  · exact iff_of_false nofun nofun
  · constructor
    · exact fun h => ⟨a, between, rfl, h⟩
    · rintro ⟨_, _, ⟨⟩, h⟩
      exact h

theorem run_lift_bind {ε σ α β : Type} (step : StateM σ α) (next : α → ExceptT ε (StateM σ) β)
    (before : σ) : (ExceptT.lift step >>= next).run.run before =
      (next (step.run before).1).run.run (step.run before).2 := rfl

namespace Rotation

open FileStore (access)

variable {store after : FileStore} {path : String} {bound backups : ℕ}

/-! ### Contents that move up -/

/-- The contents of slots when those from one up to a number have moved up by one. -/
def shifted (count : ℕ) (logs : ℕ → Option Octets) : ℕ → Option Octets
  | 0 => logs 0
  | 1 => none
  | number + 2 => if number < count then logs (number + 1) else logs (number + 2)

/-- The contents of slots when the log and its backups have moved up by one and the last one is
gone. -/
def pushed (backups : ℕ) (logs : ℕ → Option Octets) : ℕ → Option Octets
  | 0 => none
  | number + 1 => if number < backups then logs number else logs (number + 1)

/-- Beyond the backups no log is pushed. -/
theorem pushed_of_gt {number : ℕ} {logs : ℕ → Option Octets} (h : backups < number) :
    pushed backups logs number = logs number := by
  cases number with
  | zero => exact absurd h (Nat.not_lt_zero _)
  | succ number => exact if_neg (by omega)

theorem shifted_zero {logs : ℕ → Option Octets} (hfree : logs 1 = none) :
    shifted 0 logs = logs := by
  funext number
  match number with
  | 0 => rfl
  | 1 => exact hfree.symm
  | number + 2 => rfl

/-- The last slot moves first, and the others can then move into free slots. -/
theorem shifted_succ (count : ℕ) (logs : ℕ → Option Octets) :
    shifted (count + 1) logs = shifted count
      (Function.update (Function.update logs (count + 1) none) (count + 2) (logs (count + 1))) := by
  funext number
  match number with
  | 0 => simp [shifted]
  | 1 => rfl
  | number + 2 =>
    rcases Nat.lt_trichotomy number count with h | rfl | h
    · simp [shifted, h, Nat.lt_succ_of_lt h, h.ne, show number ≠ count + 1 by omega]
    · simp [shifted]
    · simp [shifted, h.not_gt, h.ne', show ¬ number < count + 1 by omega,
        show number + 1 ≠ count by omega]

/-- Once the last slot is empty and the backups have moved up, the log moves into the first one. -/
theorem pushed_succ (backups : ℕ) (logs : ℕ → Option Octets) :
    pushed (backups + 1) logs =
      Function.update
        (Function.update (shifted backups (Function.update logs (backups + 1) none)) 0 none) 1
        (shifted backups (Function.update logs (backups + 1) none) 0) := by
  funext number
  match number with
  | 0 => simp [pushed]
  | 1 => simp [pushed, shifted]
  | number + 2 =>
    rcases Nat.lt_trichotomy number backups with h | rfl | h
    · simp [pushed, shifted, h, h.ne]
    · simp [pushed, shifted]
    · simp [pushed, shifted, h.not_gt, show number + 1 ≠ backups by omega]

/-! ### Files that may be there -/

/-- A file is removed if it is there, and nothing happens otherwise. -/
theorem run_removeIfPresent (store : FileStore) (path : String) :
    (removeIfPresent access path).run.run store =
      if store.isPresentAt path then (access.remove path).run store else (.ok (), store) := by
  show (if store.isPresentAt path then ExceptT.mk (access.remove path)
    else pure ()).run.run store = _
  split <;> rfl

theorem run_renameIfPresent (store : FileStore) (source target : String) :
    (renameIfPresent access source target).run.run store =
      if store.isPresentAt source then (access.rename source target).run store
      else (.ok (), store) := by
  show (if store.isPresentAt source then ExceptT.mk (access.rename source target)
    else pure ()).run.run store = _
  split <;> rfl

section

variable {directories : List Location} (layout : Layout path directories)
variable (hstore : store.directories = directories) {m n : ℕ}

include hstore

/-- A slot is empty once the file was removed that might have been there. -/
theorem leaves_of_removeIfPresent
    (h : (removeIfPresent access (slotPath path n)).run.run store = (.ok (), after)) :
    layout.Leaves store (Function.update (layout.logs store) n none) after := by
  rw [run_removeIfPresent] at h
  split at h
  case isTrue => exact layout.leaves_of_remove hstore h
  case isFalse hpresent =>
    cases h
    have hnone := layout.logs_of_not_isPresentAt hstore (Bool.eq_false_iff.2 hpresent)
    rw [Function.update_eq_self_iff.2 hnone.symm]
    exact .refl layout store

/-- A file that might be there has moved to a slot that was free. -/
theorem leaves_of_renameIfPresent (hfree : layout.logs store n = none)
    (h : (renameIfPresent access (slotPath path m) (slotPath path n)).run.run store =
      (.ok (), after)) :
    layout.Leaves store
      (Function.update (Function.update (layout.logs store) m none) n (layout.logs store m))
      after := by
  rw [run_renameIfPresent] at h
  split at h
  case isTrue => exact layout.leaves_of_rename hstore h
  case isFalse hpresent =>
    cases h
    have hnone := layout.logs_of_not_isPresentAt hstore (Bool.eq_false_iff.2 hpresent)
    have hleft : Function.update (layout.logs store) m none = layout.logs store :=
      Function.update_eq_self_iff.2 hnone.symm
    have htaken : Function.update (layout.logs store) n none = layout.logs store :=
      Function.update_eq_self_iff.2 hfree.symm
    rw [hnone, hleft, htaken]
    exact .refl layout store

/-- The backups move up by one if the slot above them is free. -/
theorem leaves_of_shift {count : ℕ} (hfree : layout.logs store (count + 1) = none)
    (h : (shift access path count).run.run store = (.ok (), after)) :
    layout.Leaves store (shifted count (layout.logs store)) after := by
  induction count generalizing store with
  | zero =>
    cases h
    rw [shifted_zero hfree]
    exact .refl layout _
  | succ count ih =>
    obtain ⟨_, between, hrename, hshift⟩ := run_bind_eq_ok_iff.1 h
    have hraised := leaves_of_renameIfPresent layout (m := count + 1) hstore hfree hrename
    have hrest := ih (hraised.directories.trans hstore) (by simp [hraised.logs_eq]) hshift
    rw [hraised.logs_eq, ← shifted_succ] at hrest
    exact hraised.trans hrest

/-- The log and its backups move up by one, and the last of them is gone. -/
theorem leaves_of_putAside
    (h : (putAside access path (backups + 1)).run.run store = (.ok (), after)) :
    layout.Leaves store (pushed (backups + 1) (layout.logs store)) after := by
  obtain ⟨_, emptied, hremove, h⟩ := run_bind_eq_ok_iff.1 h
  obtain ⟨_, raised, hshift, hrename⟩ := run_bind_eq_ok_iff.1 h
  have hemptied := leaves_of_removeIfPresent layout (n := backups + 1) hstore hremove
  have hemptiedStore := hemptied.directories.trans hstore
  have hraised := leaves_of_shift layout hemptiedStore (by simp [hemptied.logs_eq]) hshift
  have hmoved := layout.leaves_of_rename (m := 0) (n := 1)
    (hraised.directories.trans hemptiedStore) hrename
  rw [hraised.logs_eq, hemptied.logs_eq, ← pushed_succ] at hmoved
  exact (hemptied.trans hraised).trans hmoved

end

/-! ### Places for all slots -/

/-- There are places for a log and for its backups up to a number, so that no operation on them can
fail. -/
def HasPlaces (store : FileStore) (path : String) (backups : ℕ) : Prop :=
  ∀ number ≤ backups, ∃ location, store.placeAt (slotPath path number) = .ok location

/-- Where the slots have places they are laid out. -/
theorem HasPlaces.exists_layout (h : HasPlaces store path backups) :
    Nonempty (Layout path store.directories) :=
  (h 0 (Nat.zero_le backups)).elim fun _ hplace => Rotation.exists_layout hplace

theorem HasPlaces.congr (h : HasPlaces store path backups)
    (hdirectories : after.directories = store.directories) : HasPlaces after path backups := by
  obtain ⟨layout⟩ := h.exists_layout
  intro number hnumber
  rw [layout.placeAt_eq hdirectories, ← layout.placeAt_eq rfl]
  exact h number hnumber

theorem HasPlaces.mono (h : HasPlaces store path backups) {fewer : ℕ} (hfewer : fewer ≤ backups) :
    HasPlaces store path fewer :=
  fun number hnumber => h number (hnumber.trans hfewer)

/-- At a place for a file, removing what is there succeeds. -/
theorem exists_removeIfPresent {location : Location} (h : store.placeAt path = .ok location) :
    ∃ after, (removeIfPresent access path).run.run store = (.ok (), after) := by
  rw [run_removeIfPresent, FileStore.isPresentAt_of_placeAt h]
  cases hcontent : store.content? location with
  | none => exact ⟨store, rfl⟩
  | some octets =>
    exact ⟨_, FileStore.run_remove_eq_ok_iff.2 ⟨location, octets, h, hcontent, rfl⟩⟩

theorem exists_renameIfPresent {target : String} {location place : Location}
    (h : store.placeAt path = .ok location) (htarget : store.placeAt target = .ok place) :
    ∃ after, (renameIfPresent access path target).run.run store = (.ok (), after) := by
  rw [run_renameIfPresent, FileStore.isPresentAt_of_placeAt h]
  cases hcontent : store.content? location with
  | none => exact ⟨store, rfl⟩
  | some octets =>
    exact ⟨_, FileStore.run_rename_eq_ok_iff.2
      ⟨location, octets, place, h, hcontent, htarget, rfl⟩⟩

/-- Where the slots have places and the last is free, shifting succeeds. -/
theorem exists_shift {directories : List Location} (layout : Layout path directories) {count : ℕ}
    (hstore : store.directories = directories) (hplaces : HasPlaces store path (count + 1))
    (hfree : layout.logs store (count + 1) = none) :
    ∃ after, (shift access path count).run.run store = (.ok (), after) := by
  induction count generalizing store with
  | zero => exact ⟨_, rfl⟩
  | succ count ih =>
    obtain ⟨location, hsource⟩ := hplaces (count + 1) (by omega)
    obtain ⟨place, htarget⟩ := hplaces (count + 2) le_rfl
    obtain ⟨between, hrename⟩ := exists_renameIfPresent hsource htarget
    have hraised := leaves_of_renameIfPresent layout (m := count + 1) hstore hfree hrename
    obtain ⟨after, hshift⟩ := ih (hraised.directories.trans hstore)
      ((hplaces.mono (Nat.le_succ _)).congr hraised.directories) (by simp [hraised.logs_eq])
    exact ⟨after, run_bind_eq_ok_iff.2 ⟨(), between, hrename, hshift⟩⟩

/-- A log can be put aside where there are places for all slots. -/
theorem exists_putAside (hbackups : 0 < backups) (hplaces : HasPlaces store path backups)
    {octets : Octets} (hread : store.readAt path = .ok octets) :
    ∃ after, (putAside access path backups).run.run store = (.ok (), after) := by
  obtain ⟨backups, rfl⟩ := Nat.exists_eq_add_one_of_ne_zero hbackups.ne'
  obtain ⟨layout⟩ := hplaces.exists_layout
  obtain ⟨last, hlast⟩ := hplaces (backups + 1) le_rfl
  obtain ⟨emptied, hremove⟩ := exists_removeIfPresent hlast
  have hemptied := leaves_of_removeIfPresent layout (n := backups + 1) rfl hremove
  have hfree : layout.logs emptied (backups + 1) = none := by simp [hemptied.logs_eq]
  obtain ⟨raised, hshift⟩ := exists_shift layout hemptied.directories
    (hplaces.congr hemptied.directories) hfree
  have hraised := hemptied.trans (leaves_of_shift layout hemptied.directories hfree hshift)
  -- the log itself has not been touched so far
  have hlog : raised.readAt path = .ok octets := by
    rw [← hread]
    refine layout.readAt_congr (n := 0) rfl hraised.directories ?_
    simp [hraised.logs_eq, hemptied.logs_eq, shifted]
  obtain ⟨location, hplace, hcontent⟩ := FileStore.readAt_eq_ok_iff.1 hlog
  obtain ⟨first, hfirst⟩ := hplaces.congr hraised.directories 1 (by omega)
  have hrename := FileStore.run_rename_eq_ok_iff.2
    ⟨location, octets, first, hplace, hcontent, hfirst, rfl⟩
  exact ⟨_, run_bind_eq_ok_iff.2 ⟨(), emptied, hremove,
    run_bind_eq_ok_iff.2 ⟨(), raised, hshift, hrename⟩⟩⟩

/-! ### A log that is put aside -/

/-- What is in a store once a log has been put aside. -/
structure IsPutAside (path : String) (backups : ℕ) (store after : FileStore) : Prop where
  readAt_log : after.readAt path = .error .missing
  contentAt_succ : ∀ number < backups,
    after.contentAt (slotPath path (number + 1)) = store.contentAt (slotPath path number)
  readAt_of_gt : ∀ number, backups < number →
    after.readAt (slotPath path number) = store.readAt (slotPath path number)
  content?_of_ne : ∀ location,
    (∀ number ≤ backups, store.placeAt (slotPath path number) ≠ .ok location) →
      after.content? location = store.content? location
  directories : after.directories = store.directories

/-- Putting a log aside, if it succeeds, does what it should. -/
theorem isPutAside_of_putAside (hbackups : 0 < backups) {octets : Octets}
    (hread : store.readAt path = .ok octets)
    (h : (putAside access path backups).run.run store = (.ok (), after)) :
    IsPutAside path backups store after := by
  obtain ⟨backups, rfl⟩ := Nat.exists_eq_add_one_of_ne_zero hbackups.ne'
  obtain ⟨location, hplace, -⟩ := FileStore.readAt_eq_ok_iff.1 hread
  obtain ⟨layout⟩ := exists_layout hplace
  have hafter := leaves_of_putAside layout rfl h
  have hlogs := congrFun hafter.logs_eq
  refine ⟨?_, fun number hnumber => ?_, fun number hnumber => ?_, fun place hne => ?_,
    hafter.directories⟩
  · have hslot : layout.slot 0 = .ok location := (layout.placeAt_eq rfl 0).symm.trans hplace
    have hnone : after.content? location = none :=
      (layout.logs_of_slot hslot).symm.trans (hlogs 0)
    have hafterPlace : after.placeAt path = .ok location :=
      (layout.placeAt_eq hafter.directories 0).trans hslot
    rw [FileStore.readAt_of_placeAt hafterPlace, hnone]
    rfl
  · rw [layout.contentAt_eq hafter.directories, layout.contentAt_eq rfl, hlogs, pushed,
      if_pos hnumber]
  · refine layout.readAt_congr rfl hafter.directories ?_
    rw [hlogs, pushed_of_gt hnumber]
  · exact hafter.content?_of_ne rfl (fun number hnumber => pushed_of_gt hnumber) hne

/-! ### Rotations -/

/-- A log that is not there or has not grown to its bound stays. -/
theorem run_rotate_of_short (backups : ℕ) (h : store.readAt path = .error .missing ∨
    ∃ octets, store.readAt path = .ok octets ∧ octets.length < bound) :
    (rotate access path bound backups).run.run store = (.ok false, store) := by
  rw [rotate, run_lift_bind, FileStore.run_size]
  rcases h with hread | ⟨octets, hread, hshort⟩
  · rw [hread]
    rfl
  · simp only [hread, Except.map, if_pos hshort]
    rfl

/-- A log that cannot be read is not rotated, and the error is passed on. -/
theorem run_rotate_of_error (backups : ℕ) {error : FileError}
    (hread : store.readAt path = .error error) (hother : error ≠ .missing) :
    (rotate access path bound backups).run.run store = (.error error, store) := by
  rw [rotate, run_lift_bind, FileStore.run_size, hread]
  cases error with
  | missing => exact absurd rfl hother
  | _ => rfl

/-- A log that has grown to its bound is put aside. -/
theorem run_rotate_of_long (backups : ℕ) {octets : Octets} (hread : store.readAt path = .ok octets)
    (hlong : bound ≤ octets.length) :
    (rotate access path bound backups).run.run store =
      (putAside access path backups >>= fun _ => pure true).run.run store := by
  rw [rotate, run_lift_bind, FileStore.run_size]
  simp only [hread, Except.map, if_neg (not_lt.2 hlong)]

/-- A log that reaches the bound is put aside. -/
theorem run_rotate_of_putAside {octets : Octets} (hread : store.readAt path = .ok octets)
    (hlong : bound ≤ octets.length)
    (h : (putAside access path backups).run.run store = (.ok (), after)) :
    (rotate access path bound backups).run.run store = (.ok true, after) := by
  rw [run_rotate_of_long backups hread hlong]
  exact run_bind_eq_ok_iff.2 ⟨(), after, h, rfl⟩

/-- What a rotation that succeeds can have done. -/
theorem rotate_cases {answer : Bool}
    (h : (rotate access path bound backups).run.run store = (.ok answer, after)) :
    (answer = false ∧ after = store ∧ ∀ octets, store.readAt path = .ok octets →
      octets.length < bound) ∨
    (answer = true ∧ (putAside access path backups).run.run store = (.ok (), after) ∧
      ∃ octets, store.readAt path = .ok octets ∧ bound ≤ octets.length) := by
  cases hread : store.readAt path with
  | error error =>
    by_cases hmissing : error = .missing
    · rw [run_rotate_of_short backups (.inl (hmissing ▸ hread))] at h
      cases h
      exact .inl ⟨rfl, rfl, nofun⟩
    · rw [run_rotate_of_error backups hread hmissing] at h
      cases h
  | ok octets =>
    by_cases hshort : octets.length < bound
    · rw [run_rotate_of_short backups (.inr ⟨octets, hread, hshort⟩)] at h
      cases h
      refine .inl ⟨rfl, rfl, ?_⟩
      rintro _ ⟨⟩
      exact hshort
    · rw [run_rotate_of_long backups hread (not_lt.1 hshort)] at h
      obtain ⟨_, between, hrun, hanswer⟩ := run_bind_eq_ok_iff.1 h
      cases hanswer
      exact .inr ⟨rfl, hrun, octets, rfl, not_lt.1 hshort⟩

end Rotation

end EvidenceSynthesis
