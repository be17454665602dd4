import EvidenceSynthesis.Proofs.Logs.Rotations
import Mathlib

/-!
# Rotations that are interrupted

A change of files can fail, and then it leaves them as they are.  `Attempts` is a store together
with the changes that were tried on it, and `faultyAccess` are the operations on it where faults are
set for some of the tries.  A rotation is broken off by the first change that fails, whichever it is
and for whatever reason; as long as none fails, it is the rotation for which no fault is set
(`Rotation.follows_putAside`).

Where a rotation is broken off while it moves the logs, one slot is free: those below it have not
been touched, and those above it hold what was one below them (`Rotation.raisedAbove`).  Each move
frees the next slot below (`Rotation.raisedAbove_eq_update`), so that nothing but the oldest backup
is ever missing.

Main statement: what is there after a rotation that is broken off
(`Rotation.rotate_interrupted`).
-/

namespace EvidenceSynthesis

open Text (Octets)
open FileStore (access)

/-! ### Changes that may fail -/

/-- A store, and how the changes ended that were tried on it. -/
structure Attempts where
  store : FileStore
  outcomes : List (Except FileError Unit)

namespace Attempts

/-- What is seen in the store. -/
def look {α : Type} (step : StateM FileStore α) : StateM Attempts α :=
  modifyGet fun attempts => ((step.run attempts.store).1, attempts)

/-- Tries a change.  Where a fault is set for this try, the change fails and has no effect. -/
def attempt (faults : ℕ → Option FileError) (step : StateM FileStore (Except FileError Unit)) :
    StateM Attempts (Except FileError Unit) :=
  modifyGet fun attempts =>
    match faults attempts.outcomes.length with
    | some fault => (.error fault, ⟨attempts.store, attempts.outcomes ++ [.error fault]⟩)
    | none =>
      let (outcome, store) := step.run attempts.store
      (outcome, ⟨store, attempts.outcomes ++ [outcome]⟩)

end Attempts

open Attempts (look attempt)

/-- The operations on files where faults are set for some of the changes. -/
def faultyAccess (faults : ℕ → Option FileError) : FileAccess (StateM Attempts) where
  isPresent path := look (access.isPresent path)
  size path := look (access.size path)
  read path := look (access.read path)
  write path octets := attempt faults (access.write path octets)
  ensure path := attempt faults (access.ensure path)
  remove path := attempt faults (access.remove path)
  rename source target := attempt faults (access.rename source target)
  createDirectories path := attempt faults (access.createDirectories path)

variable {faults : ℕ → Option FileError} {before after : Attempts}

/-- A change at fault is not made, and the fault is recorded. -/
theorem run_attempt_of_fault {step : StateM FileStore (Except FileError Unit)} {fault : FileError}
    (h : faults before.outcomes.length = some fault) :
    (attempt faults step).run before =
      (.error fault, ⟨before.store, before.outcomes ++ [.error fault]⟩) := by
  unfold attempt
  simp only [StateT.run, modifyGet, MonadStateOf.modifyGet, StateT.modifyGet, h]
  rfl

theorem run_attempt_of_none {step : StateM FileStore (Except FileError Unit)}
    {outcome : Except FileError Unit} {store : FileStore}
    (h : faults before.outcomes.length = none) (hstep : step.run before.store = (outcome, store)) :
    (attempt faults step).run before =
      (outcome, ⟨store, before.outcomes ++ [outcome]⟩) := by
  unfold attempt
  simp only [StateT.run, modifyGet, MonadStateOf.modifyGet, StateT.modifyGet, h]
  rw [StateT.run] at hstep
  rw [hstep]
  rfl

/-- A change that fails leaves the store as it is, whether or not a fault was set for it. -/
theorem store_of_attempt_error {step : FileStore → Except FileError FileStore} {error : FileError}
    (h : (attempt faults (FileStore.change step)).run before = (.error error, after)) :
    after.store = before.store := by
  cases hfault : faults before.outcomes.length with
  | some fault =>
    rw [run_attempt_of_fault hfault] at h
    cases h
    rfl
  | none =>
    cases hstep : step before.store with
    | error error =>
      rw [run_attempt_of_none hfault (FileStore.run_change_of_error hstep)] at h
      cases h
      rfl
    | ok store =>
      rw [run_attempt_of_none hfault (FileStore.run_change_of_ok hstep)] at h
      cases h

/-! ### Steps that follow others -/

section

variable {α β : Type}

/-- How steps end whose changes may fail.  Either no change has failed, and they have done what the
steps do on the store alone; or the last change has failed, and its error is what comes out. -/
inductive Ends (step : ExceptT FileError (StateM FileStore) α) (before after : Attempts) :
    Except FileError α → Prop
  | done (a : α) (made : ℕ) (hstep : step.run.run before.store = (.ok a, after.store))
    (houtcomes : after.outcomes = before.outcomes ++ List.replicate made (.ok ())) :
    Ends step before after (.ok a)
  | failed (error : FileError) (made : ℕ)
    (houtcomes : after.outcomes =
      before.outcomes ++ (List.replicate made (.ok ()) ++ [.error error])) :
    Ends step before after (.error error)

/-- Steps whose changes may fail do what others do on the store alone, until a change fails. -/
def Follows (faulty : ExceptT FileError (StateM Attempts) α)
    (step : ExceptT FileError (StateM FileStore) α) : Prop :=
  ∀ before after result, faulty.run.run before = (result, after) → Ends step before after result

/-- Of two steps, either the first fails or the second takes over. -/
theorem run_bind_cases {ε σ : Type} {step : ExceptT ε (StateM σ) α}
    {next : α → ExceptT ε (StateM σ) β} {before after : σ} {result : Except ε β}
    (h : (step >>= next).run.run before = (result, after)) :
    (∃ error, step.run.run before = (.error error, after) ∧ result = .error error) ∨
      ∃ a between, step.run.run before = (.ok a, between) ∧
        (next a).run.run between = (result, after) := by
  rw [run_bind_eq] at h
  rcases hstep : step.run.run before with ⟨error | a, between⟩
  · rw [hstep] at h
    cases h
    exact .inl ⟨error, rfl, rfl⟩
  · rw [hstep] at h
    exact .inr ⟨a, between, rfl, h⟩

theorem follows_pure (a : α) : Follows (pure a) (pure a) := by
  intro before after result h
  cases h
  exact .done a 0 rfl (List.append_nil _).symm

theorem follows_look {step : StateM FileStore α} (hstep : ∀ store, (step.run store).2 = store) :
    Follows (ExceptT.lift (look step)) (ExceptT.lift step) := by
  intro before after result h
  cases h
  refine .done (step.run before.store).1 0 ?_ (List.append_nil _).symm
  exact Prod.ext rfl (hstep before.store)

/-- A change that may be at fault follows the change. -/
theorem follows_attempt (step : StateM FileStore (Except FileError Unit)) :
    Follows (ExceptT.mk (attempt faults step)) (ExceptT.mk step) := by
  intro before after result h
  change (attempt faults step).run before = _ at h
  cases hfault : faults before.outcomes.length with
  | some fault =>
    rw [run_attempt_of_fault hfault] at h
    cases h
    exact .failed fault 0 rfl
  | none =>
    rcases hrun : step.run before.store with ⟨outcome, store⟩
    rw [run_attempt_of_none hfault hrun] at h
    cases h
    cases result with
    | ok _ => exact .done () 1 hrun rfl
    | error error => exact .failed error 0 rfl

/-- Steps one after the other follow others that they follow one by one. -/
theorem Follows.bind {faulty : ExceptT FileError (StateM Attempts) α}
    {step : ExceptT FileError (StateM FileStore) α}
    {faultyNext : α → ExceptT FileError (StateM Attempts) β}
    {next : α → ExceptT FileError (StateM FileStore) β} (h : Follows faulty step)
    (hnext : ∀ a, Follows (faultyNext a) (next a)) :
    Follows (faulty >>= faultyNext) (step >>= next) := by
  intro before after result hrun
  rcases run_bind_cases hrun with ⟨error, hfirst, rfl⟩ | ⟨a, between, hfirst, hrest⟩
  · cases h _ _ _ hfirst with
    | failed _ made houtcomes => exact .failed error made houtcomes
  · cases h _ _ _ hfirst with
    | done _ made hstep houtcomes =>
      cases hnext a _ _ _ hrest with
      | done b others hothers hafter =>
        refine .done b (made + others)
          (run_bind_eq_ok_iff.2 ⟨a, between.store, hstep, hothers⟩) ?_
        rw [hafter, houtcomes, List.append_assoc, List.replicate_append_replicate]
      | failed error others hafter =>
        refine .failed error (made + others) ?_
        rw [hafter, houtcomes, List.append_assoc, ← List.append_assoc (List.replicate made _),
          List.replicate_append_replicate]

end

namespace Rotation

variable {store : FileStore} {path : String} {bound backups : ℕ}

/-! ### Rotations that follow others -/

theorem follows_removeIfPresent (path : String) :
    Follows (removeIfPresent (faultyAccess faults) path) (removeIfPresent access path) := by
  apply Follows.bind (follows_look fun _ => rfl)
  intro present
  cases present with
  | false => exact follows_pure ()
  | true => exact follows_attempt _

theorem follows_renameIfPresent (source target : String) :
    Follows (renameIfPresent (faultyAccess faults) source target)
      (renameIfPresent access source target) := by
  apply Follows.bind (follows_look fun _ => rfl)
  intro present
  cases present with
  | false => exact follows_pure ()
  | true => exact follows_attempt _

/-- Shifting under faults follows shifting without. -/
theorem follows_shift (path : String) (count : ℕ) :
    Follows (shift (faultyAccess faults) path count) (shift access path count) := by
  induction count with
  | zero => exact follows_pure ()
  | succ count ih => exact (follows_renameIfPresent _ _).bind fun _ => ih

/-- A log is put aside as if no fault were set, until a change fails. -/
theorem follows_putAside (path : String) (backups : ℕ) :
    Follows (putAside (faultyAccess faults) path backups) (putAside access path backups) := by
  cases backups with
  | zero => exact follows_attempt _
  | succ backups =>
    apply (follows_removeIfPresent _).bind
    intro _
    exact (follows_shift path backups).bind fun _ => follows_attempt _

/-! ### A free slot -/

/-- The contents of slots when those from a number on have moved up by one and the last one is
gone. -/
def raisedAbove (free backups : ℕ) (logs : ℕ → Option Octets) (number : ℕ) : Option Octets :=
  if number < free then logs number
  else if number = free then none
  else if number ≤ backups then logs (number - 1)
  else logs number

/-- The number of a log when the logs from a number on have moved up by one. -/
def raisedNumber (free number : ℕ) : ℕ :=
  if number < free then number else number + 1

/-- No two logs move to the same number. -/
theorem raisedNumber_injective (free : ℕ) : Function.Injective (raisedNumber free) := by
  intro m n h
  unfold raisedNumber at h
  split at h <;> split at h <;> omega

theorem raisedNumber_eq_or (free number : ℕ) :
    raisedNumber free number = number ∨ raisedNumber free number = number + 1 := by
  unfold raisedNumber
  split
  · exact .inl rfl
  · exact .inr rfl

/-- A log is found under the number that it has now. -/
theorem raisedAbove_raisedNumber {free number : ℕ} (h : number < backups)
    (logs : ℕ → Option Octets) :
    raisedAbove free backups logs (raisedNumber free number) = logs number := by
  unfold raisedAbove raisedNumber
  by_cases hbelow : number < free
  · rw [if_pos hbelow, if_pos hbelow]
  · rw [if_neg hbelow, if_neg (by omega), if_neg (by omega), if_pos (by omega),
      Nat.add_sub_cancel]

theorem raisedAbove_of_gt {free number : ℕ} (hfree : free ≤ backups) (h : backups < number)
    (logs : ℕ → Option Octets) : raisedAbove free backups logs number = logs number := by
  unfold raisedAbove
  rw [if_neg (by omega), if_neg (by omega), if_neg (by omega)]

/-- At first the last slot is free. -/
theorem raisedAbove_last (backups : ℕ) (logs : ℕ → Option Octets) :
    raisedAbove backups backups logs = Function.update logs backups none := by
  funext number
  unfold raisedAbove
  rcases Nat.lt_trichotomy number backups with h | rfl | h
  · rw [if_pos h, Function.update_of_ne h.ne]
  · rw [if_neg (lt_irrefl _), if_pos rfl, Function.update_self]
  · rw [if_neg (by omega), if_neg h.ne', if_neg (by omega), Function.update_of_ne h.ne']

/-- The log below the free slot moves into it and leaves its own slot free. -/
theorem raisedAbove_eq_update {free : ℕ} (h : free < backups) (logs : ℕ → Option Octets) :
    raisedAbove free backups logs =
      Function.update (Function.update (raisedAbove (free + 1) backups logs) free none) (free + 1)
        (raisedAbove (free + 1) backups logs free) := by
  funext number
  by_cases hnext : number = free + 1
  · rw [hnext, Function.update_self]
    unfold raisedAbove
    rw [if_neg (by omega), if_neg (by omega), if_pos (by omega), if_pos (by omega),
      Nat.add_sub_cancel]
  · rw [Function.update_of_ne hnext]
    by_cases hfree : number = free
    · rw [hfree, Function.update_self]
      unfold raisedAbove
      rw [if_neg (lt_irrefl _), if_pos rfl]
    · rw [Function.update_of_ne hfree]
      unfold raisedAbove
      have hbelow : number < free + 1 ↔ number < free := by omega
      simp only [hbelow, hnext, hfree]

/-! ### Changes that fail -/

variable {error : FileError}

/-- A removal that fails leaves the store as it was. -/
theorem store_of_removeIfPresent_error
    (h : (removeIfPresent (faultyAccess faults) path).run.run before = (.error error, after)) :
    after.store = before.store := by
  rcases run_bind_cases h with ⟨_, hlook, -⟩ | ⟨present, between, hlook, hremove⟩
  · cases hlook
  · cases hlook
    split at hremove
    · have hattempt : (attempt faults (access.remove path)).run before = (.error error, after) :=
        hremove
      exact store_of_attempt_error hattempt
    · cases hremove

theorem store_of_renameIfPresent_error {source target : String}
    (h : (renameIfPresent (faultyAccess faults) source target).run.run before =
      (.error error, after)) : after.store = before.store := by
  rcases run_bind_cases h with ⟨_, hlook, -⟩ | ⟨present, between, hlook, hrename⟩
  · cases hlook
  · cases hlook
    split at hrename
    · have hattempt : (attempt faults (access.rename source target)).run before =
          (.error error, after) := hrename
      exact store_of_attempt_error hattempt
    · cases hrename

/-! ### Logs that move one after the other -/

section

variable {directories : List Location} (layout : Layout path directories)
variable (hstore : store.directories = directories) {result : Except FileError Unit}

include hstore

/-- The log below the free slot has moved, or nothing has. -/
theorem raised_of_renameIfPresent {free : ℕ} (hfree : free < backups)
    (h : layout.Leaves store (raisedAbove (free + 1) backups (layout.logs store)) before.store)
    (hrun : (renameIfPresent (faultyAccess faults) (slotPath path free)
      (slotPath path (free + 1))).run.run before = (result, after)) :
    result = .ok () ∧
        layout.Leaves store (raisedAbove free backups (layout.logs store)) after.store ∨
      (∃ error, result = .error error) ∧
        layout.Leaves store (raisedAbove (free + 1) backups (layout.logs store)) after.store := by
  cases result with
  | error error =>
    rw [store_of_renameIfPresent_error hrun]
    exact .inr ⟨⟨error, rfl⟩, h⟩
  | ok _ =>
    refine .inl ⟨rfl, ?_⟩
    cases follows_renameIfPresent _ _ _ _ _ hrun with
    | done _ made hstep houtcomes =>
      have hempty : layout.logs before.store (free + 1) = none := by
        rw [h.logs_eq, raisedAbove, if_neg (lt_irrefl _), if_pos rfl]
      have hmoved := leaves_of_renameIfPresent layout (h.directories.trans hstore) hempty hstep
      rw [h.logs_eq, ← raisedAbove_eq_update hfree] at hmoved
      exact h.trans hmoved

/-- However far the logs have moved, one slot is free. -/
theorem raised_of_shift {count : ℕ} (hcount : count < backups)
    (h : layout.Leaves store (raisedAbove (count + 1) backups (layout.logs store)) before.store)
    (hrun : (shift (faultyAccess faults) path count).run.run before = (result, after)) :
    ∃ free, 0 < free ∧ free ≤ backups ∧
      layout.Leaves store (raisedAbove free backups (layout.logs store)) after.store := by
  induction count generalizing before with
  | zero =>
    cases hrun
    exact ⟨1, Nat.one_pos, hcount, h⟩
  | succ count ih =>
    rcases run_bind_cases hrun with ⟨_, hrename, rfl⟩ | ⟨_, between, hrename, hshift⟩
    · rcases raised_of_renameIfPresent layout hstore hcount h hrename with ⟨hok, -⟩ | ⟨-, hafter⟩
      · cases hok
      · exact ⟨count + 2, Nat.succ_pos _, hcount, hafter⟩
    · rcases raised_of_renameIfPresent layout hstore hcount h hrename with
        ⟨-, hbetween⟩ | ⟨⟨_, hfailed⟩, -⟩
      · exact ih (Nat.lt_of_succ_lt hcount) hbetween hshift
      · cases hfailed

/-- A rotation that is broken off has done nothing yet, or one slot is free. -/
theorem raised_of_putAside (hbefore : before.store = store)
    (hrun : (putAside (faultyAccess faults) path (backups + 1)).run.run before =
      (.error error, after)) :
    after.store = store ∨ ∃ free, 0 < free ∧ free ≤ backups + 1 ∧
      layout.Leaves store (raisedAbove free (backups + 1) (layout.logs store)) after.store := by
  rcases run_bind_cases hrun with ⟨_, hremove, -⟩ | ⟨_, emptied, hremove, hrest⟩
  · exact .inl ((store_of_removeIfPresent_error hremove).trans hbefore)
  · right
    cases follows_removeIfPresent _ _ _ _ hremove with
    | done _ made hstep houtcomes =>
      rw [hbefore] at hstep
      have hemptied := leaves_of_removeIfPresent layout (n := backups + 1) hstore hstep
      rw [← raisedAbove_last] at hemptied
      rcases run_bind_cases hrest with ⟨_, hshift, -⟩ | ⟨_, raised, hshift, hrename⟩
      · exact raised_of_shift layout hstore (Nat.lt_succ_self backups) hemptied hshift
      · obtain ⟨free, hpositive, hfree, hraised⟩ :=
          raised_of_shift layout hstore (Nat.lt_succ_self backups) hemptied hshift
        -- the last move failed and left the log where it was
        have hattempt : (attempt faults (access.rename path (backupPath path 1))).run raised =
            (.error error, after) := hrename
        rw [← store_of_attempt_error hattempt] at hraised
        exact ⟨free, hpositive, hfree, hraised⟩

end

/-! ### What is still there -/

/-- Of a log and its backups nothing has been lost but the oldest one: the log is where it was, each
of the others under its number or the next one, and what does not belong to them as it was. -/
structure KeepsLogs (path : String) (backups : ℕ) (store after : FileStore) : Prop where
  readAt_log : after.readAt path = store.readAt path
  contentAt_backup : ∃ place : ℕ → ℕ, Function.Injective place ∧
    (∀ number, place number = number ∨ place number = number + 1) ∧
    ∀ number, 0 < number → number < backups →
      after.contentAt (backupPath path (place number)) = store.contentAt (backupPath path number)
  readAt_of_gt : ∀ number, backups < number →
    after.readAt (backupPath path number) = store.readAt (backupPath path number)
  content?_of_ne : ∀ location,
    (∀ number ≤ backups, store.placeAt (slotPath path number) ≠ .ok location) →
      after.content? location = store.content? location
  directories : after.directories = store.directories

theorem KeepsLogs.refl (path : String) (backups : ℕ) (store : FileStore) :
    KeepsLogs path backups store store :=
  ⟨rfl, ⟨id, Function.injective_id, fun _ => .inl rfl, fun _ _ _ => rfl⟩, fun _ _ => rfl,
    fun _ _ => rfl, rfl⟩

theorem slotPath_of_pos {number : ℕ} (h : 0 < number) :
    slotPath path number = backupPath path number := by
  obtain ⟨number, rfl⟩ := Nat.exists_eq_add_one_of_ne_zero h.ne'
  rfl

/-- Logs that moved up into a free slot are all kept. -/
theorem keepsLogs_of_raised (layout : Layout path store.directories) {later : FileStore}
    {free : ℕ} (hpositive : 0 < free) (hfree : free ≤ backups)
    (h : layout.Leaves store (raisedAbove free backups (layout.logs store)) later) :
    KeepsLogs path backups store later := by
  refine ⟨?_, ⟨raisedNumber free, raisedNumber_injective free, raisedNumber_eq_or free,
    fun number hnumber hlast => ?_⟩, fun number hnumber => ?_, fun location hlocation => ?_,
    h.directories⟩
  · -- the log is below the free slot
    apply layout.readAt_congr (n := 0) rfl h.directories
    rw [h.logs_eq, raisedAbove, if_pos hpositive]
  · have hraised : 0 < raisedNumber free number := by
      rcases raisedNumber_eq_or free number with heq | heq <;> omega
    rw [← slotPath_of_pos hraised, ← slotPath_of_pos hnumber, layout.contentAt_eq h.directories,
      layout.contentAt_eq rfl, h.logs_eq, raisedAbove_raisedNumber hlast]
  · rw [← slotPath_of_pos (Nat.zero_lt_of_lt hnumber)]
    apply layout.readAt_congr rfl h.directories
    rw [h.logs_eq, raisedAbove_of_gt hfree hnumber]
  · exact h.content?_of_ne rfl (fun number hnumber => raisedAbove_of_gt hfree hnumber _) hlocation

/-- Under faults, too, a log that reaches the bound is put aside. -/
theorem run_rotate_faulty_of_long (backups : ℕ) {octets : Octets}
    (hread : before.store.readAt path = .ok octets) (hlong : bound ≤ octets.length) :
    (rotate (faultyAccess faults) path bound backups).run.run before =
      (putAside (faultyAccess faults) path backups >>= fun _ => pure true).run.run before := by
  have hsize : ((faultyAccess faults).size path).run before =
      ((before.store.readAt path).map List.length, before) := rfl
  rw [rotate, run_lift_bind, hsize]
  simp only [hread, Except.map, if_neg (not_lt.2 hlong)]

/-- What is there after a rotation that is broken off.

A log that has grown to its bound is put aside by removing and renaming files, and each of these
changes may fail without effect, whatever the reason.  The rotation fails exactly if one of them
does, with its error; if none does, it is the rotation for which no fault is set.

A rotation that fails has lost nothing but the oldest backup.  The log is still there as it was.
The content of each other backup that is to be kept is there under its number or the next one, no
two of them under the same, and nothing else has changed.  Where no backups are kept, nothing has
changed at all. -/
theorem rotate_interrupted (store : FileStore) (path : String) (bound backups : ℕ)
    (faults : ℕ → Option FileError) {octets : Octets} (hread : store.readAt path = .ok octets)
    (hlong : bound ≤ octets.length) {answer : Except FileError Bool} {after : Attempts}
    (hrun : (rotate (faultyAccess faults) path bound backups).run.run ⟨store, []⟩ =
      (answer, after)) :
    (∀ error, answer = .error error ↔ .error error ∈ after.outcomes) ∧
    ((∀ error, .error error ∉ after.outcomes) →
      (rotate access path bound backups).run.run store = (answer, after.store)) ∧
    ∀ error, answer = .error error →
      KeepsLogs path backups store after.store ∧ (backups = 0 → after.store = store) := by
  rw [run_rotate_faulty_of_long backups hread hlong] at hrun
  have hends := ((follows_putAside path backups).bind fun _ => follows_pure true) _ _ _ hrun
  refine ⟨fun error => ?_, fun hnone => ?_, fun error hanswer => ?_⟩
  · cases hends with
    | done _ made _ houtcomes => simp [houtcomes]
    | failed _ made houtcomes => simp [houtcomes, eq_comm]
  · rw [run_rotate_of_long backups hread hlong]
    cases hends with
    | done _ _ hstep _ => exact hstep
    | failed error made houtcomes => exact absurd (by simp [houtcomes]) (hnone error)
  · subst hanswer
    rcases run_bind_cases hrun with ⟨_, haside, -⟩ | ⟨_, _, -, hrest⟩
    · obtain ⟨location, hplace, -⟩ := FileStore.readAt_eq_ok_iff.1 hread
      obtain ⟨layout⟩ := exists_layout hplace
      cases backups with
      | zero =>
        have hattempt : (attempt faults (access.remove path)).run ⟨store, []⟩ =
            (.error _, after) := haside
        have hstore : after.store = store := store_of_attempt_error hattempt
        rw [hstore]
        exact ⟨.refl path 0 store, fun _ => rfl⟩
      | succ backups =>
        refine ⟨?_, nofun⟩
        rcases raised_of_putAside layout rfl rfl haside with
          hstore | ⟨free, hpositive, hfree, hraised⟩
        · rw [hstore]
          exact .refl path (backups + 1) store
        · exact keepsLogs_of_raised layout hpositive hfree hraised
    · cases hrest

/-- The third change fails, by which the first backup would have moved; the second one has moved by
then, and the oldest one is gone. -/
theorem rotate_interrupted_third :
    let store : FileStore :=
      ⟨[], [(["a.log"], [1, 2]), (["a.log.1"], [3]), (["a.log.2"], [4]), (["a.log.3"], [5])]⟩
    let fault : FileError := .other "No space left on device (os error 28)"
    let faults : ℕ → Option FileError := fun number => if number = 2 then some fault else none
    store.readAt "a.log" = .ok [1, 2] ∧
    ∃ answer after,
      (rotate (faultyAccess faults) "a.log" 2 3).run.run ⟨store, []⟩ = (answer, after) ∧
      answer = .error fault ∧ after.outcomes = [.ok (), .ok (), .error fault] ∧
      KeepsLogs "a.log" 3 store after.store ∧
      after.store.contentAt "a.log" = some [1, 2] ∧
      after.store.contentAt (backupPath "a.log" 1) = some [3] ∧
      after.store.contentAt (backupPath "a.log" 2) = none ∧
      after.store.contentAt (backupPath "a.log" 3) = some [4] := by
  intro store fault faults
  have hread : store.readAt "a.log" = .ok [1, 2] := by cbv
  have hrun : (rotate (faultyAccess faults) "a.log" 2 3).run.run ⟨store, []⟩ =
      (.error fault,
        ⟨⟨[], [(["a.log"], [1, 2]), (["a.log.1"], [3]), (["a.log.3"], [4])]⟩,
          [.ok (), .ok (), .error fault]⟩) := by cbv
  obtain ⟨hfails, -, hkeeps⟩ :=
    rotate_interrupted store "a.log" 2 3 faults hread (by decide) hrun
  refine ⟨hread, _, _, hrun, (hfails fault).2 (by simp), rfl, (hkeeps fault rfl).1, ?_, ?_, ?_, ?_⟩
  · rw [FileStore.contentAt, (hkeeps fault rfl).1.readAt_log, hread]
    rfl
  all_goals cbv

end Rotation

end EvidenceSynthesis
