import EvidenceSynthesis.Proofs.Logs.Rotations
import Mathlib

/-!
# Retention of logs

Over a run of writes and rotations there are the log that is being written and, of the logs that
were put aside, the latest ones.  Which ones these are is told by a `Rotation.History`, and the
store keeps in step with it (`Rotation.tracks_perform` for one event, `Rotation.tracks_performAll`
for a run).

Main statement: what a rotation does and what is there after a run
(`Rotation.rotate_keeps_latest`).
-/

namespace EvidenceSynthesis.Rotation

open Text (Octets)
open FileStore (access)

variable {store after : FileStore} {path : String} {bound backups : ℕ}

/-! ### Runs of writes and rotations -/

/-- What happens to a log. -/
inductive Event where
  | write (octets : Octets)
  | rotate
  deriving Repr, DecidableEq

section

variable {m : Type → Type} [Monad m]

/-- Lets an event happen; says whether a log was put aside. -/
def perform (files : FileAccess m) (path : String) (bound backups : ℕ) :
    Event → ExceptT FileError m Bool
  | .write octets => do
    ExceptT.mk (files.write path octets)
    return false
  | .rotate => rotate files path bound backups

/-- Lets events happen one after the other. -/
def performAll (files : FileAccess m) (path : String) (bound backups : ℕ) (events : List Event) :
    ExceptT FileError m (List Bool) :=
  events.mapM (perform files path bound backups)

end

/-- What was written to a log, and what to those that were put aside, the latest one first. -/
structure History where
  current : Option Octets
  aside : List Octets
  deriving Repr, DecidableEq

namespace History

/-- The history after an event, where only a log that has grown to its bound is put aside. -/
def step (bound : ℕ) (history : History) : Event → History
  | .write octets => { history with current := some octets }
  | .rotate =>
    match history.current with
    | some octets =>
      if octets.length < bound then history else ⟨none, octets :: history.aside⟩
    | none => history

/-- The history after a run. -/
def run (bound : ℕ) (history : History) (events : List Event) : History :=
  events.foldl (step bound) history

end History

/-- The log and the latest ones that were put aside are there, and no others. -/
structure Tracks (path : String) (backups : ℕ) (history : History) (store : FileStore) :
    Prop where
  contentAt_log : store.contentAt path = history.current
  contentAt_backup : ∀ number, store.contentAt (backupPath path (number + 1)) =
    if number < backups then history.aside[number]? else none

variable {history : History} {event : Event} {rotated : Bool}

/-- A history that tracks the logs still does so after a write. -/
theorem Tracks.write {octets : Octets} (h : Tracks path backups history store)
    (hrun : (access.write path octets).run store = (.ok (), after)) :
    Tracks path backups (history.step bound (.write octets)) after := by
  obtain ⟨location, hplace, -⟩ := FileStore.run_write_eq_ok_iff.1 hrun
  obtain ⟨layout⟩ := exists_layout hplace
  have hafter := layout.leaves_of_write (n := 0) rfl hrun
  have hcontents : ∀ number, after.contentAt (slotPath path number) =
      Function.update (layout.logs store) 0 (some octets) number := fun number =>
    (layout.contentAt_eq hafter.directories number).trans (congrFun hafter.logs_eq number)
  refine ⟨hcontents 0, fun number => ?_⟩
  refine Eq.trans ?_ (h.contentAt_backup number)
  exact (hcontents (number + 1)).trans (layout.contentAt_eq rfl (number + 1)).symm

/-- A history that tracks the logs still does so once the log was put aside. -/
theorem Tracks.putAside {octets : Octets} (h : Tracks path backups history store)
    (haside : IsPutAside path backups store after) (hread : history.current = some octets) :
    Tracks path backups ⟨none, octets :: history.aside⟩ after := by
  refine ⟨?_, fun number => ?_⟩
  · rw [FileStore.contentAt, haside.readAt_log]
    rfl
  · by_cases hnumber : number < backups
    · rw [if_pos hnumber]
      refine (haside.contentAt_succ number hnumber).trans ?_
      cases number with
      | zero => exact h.contentAt_log.trans hread
      | succ number =>
        refine (h.contentAt_backup number).trans ?_
        rw [if_pos (by omega), List.getElem?_cons_succ]
    · rw [if_neg hnumber]
      have hkept : after.contentAt (slotPath path (number + 1)) =
          store.contentAt (slotPath path (number + 1)) :=
        congrArg Except.toOption (haside.readAt_of_gt (number + 1) (by omega))
      exact hkept.trans ((h.contentAt_backup number).trans (if_neg hnumber))

/-- An event keeps a store in step with the history. -/
theorem tracks_perform (hbackups : 0 < backups) (h : Tracks path backups history store)
    (hrun : (perform access path bound backups event).run.run store = (.ok rotated, after)) :
    Tracks path backups (history.step bound event) after ∧
      (history.step bound event).aside.length = history.aside.length + rotated.toNat := by
  cases event with
  | write octets =>
    obtain ⟨_, between, hwrite, hanswer⟩ := run_bind_eq_ok_iff.1 hrun
    cases hanswer
    exact ⟨h.write hwrite, rfl⟩
  | rotate =>
    rcases rotate_cases hrun with ⟨rfl, rfl, hshort⟩ | ⟨rfl, haside, octets, hread, hlong⟩
    · have hstep : history.step bound .rotate = history := by
        unfold History.step
        cases hcurrent : history.current with
        | none => rfl
        | some octets =>
          rw [← h.contentAt_log, FileStore.contentAt_eq_some_iff] at hcurrent
          exact if_pos (hshort octets hcurrent)
      rw [hstep]
      exact ⟨h, rfl⟩
    · have hcurrent : history.current = some octets :=
        h.contentAt_log.symm.trans (FileStore.contentAt_eq_some_iff.2 hread)
      have hstep : history.step bound .rotate = ⟨none, octets :: history.aside⟩ := by
        simp only [History.step, hcurrent, if_neg (not_lt.2 hlong)]
      rw [hstep]
      exact ⟨h.putAside (isPutAside_of_putAside hbackups hread haside) hcurrent, rfl⟩

theorem performAll_cons {m : Type → Type} [Monad m] [LawfulMonad m] (files : FileAccess m)
    (event : Event) (events : List Event) :
    performAll files path bound backups (event :: events) = do
      let answer ← perform files path bound backups event
      let answers ← performAll files path bound backups events
      return answer :: answers :=
  List.mapM_cons

/-- A run keeps a store in step with the history. -/
theorem tracks_performAll (hbackups : 0 < backups) {events : List Event} {answers : List Bool}
    (h : Tracks path backups history store)
    (hrun : (performAll access path bound backups events).run.run store = (.ok answers, after)) :
    Tracks path backups (history.run bound events) after ∧
      (history.run bound events).aside.length = history.aside.length + answers.count true := by
  induction events generalizing history store answers with
  | nil =>
    cases hrun
    exact ⟨h, rfl⟩
  | cons event events ih =>
    rw [performAll_cons] at hrun
    obtain ⟨answer, between, hevent, hrun⟩ := run_bind_eq_ok_iff.1 hrun
    obtain ⟨others, last, hothers, hanswers⟩ := run_bind_eq_ok_iff.1 hrun
    cases hanswers
    obtain ⟨hbetween, hlength⟩ := tracks_perform hbackups h hevent
    obtain ⟨hafter, hlengths⟩ := ih hbetween hothers
    refine ⟨hafter, ?_⟩
    rw [History.run, List.foldl_cons, ← History.run, hlengths, hlength]
    cases answer with
    | false => simp
    | true =>
      rw [Bool.toNat_true, List.count_cons_self]
      omega

/-- Where there are places for all slots, nothing that happens to a log fails. -/
theorem exists_perform (hplaces : HasPlaces store path backups) (hbackups : 0 < backups)
    (bound : ℕ) (event : Event) :
    ∃ answer after, (perform access path bound backups event).run.run store = (.ok answer, after) ∧
      after.directories = store.directories := by
  obtain ⟨location, hplace⟩ := hplaces 0 (Nat.zero_le _)
  cases event with
  | write octets =>
    have hwrite : (access.write path octets).run store = (.ok (), store.put location octets) :=
      FileStore.run_write_eq_ok_iff.2 ⟨location, hplace, rfl⟩
    exact ⟨false, store.put location octets, run_bind_eq_ok_iff.2 ⟨(), _, hwrite, rfl⟩,
      store.directories_put location octets⟩
  | rotate =>
    have hread : store.readAt path = FileStore.found (store.content? location) :=
      FileStore.readAt_of_placeAt hplace
    cases hcontent : store.content? location with
    | none =>
      rw [hcontent] at hread
      exact ⟨false, store, run_rotate_of_short _ (.inl hread), rfl⟩
    | some octets =>
      rw [hcontent] at hread
      by_cases hshort : octets.length < bound
      · exact ⟨false, store, run_rotate_of_short _ (.inr ⟨octets, hread, hshort⟩), rfl⟩
      · obtain ⟨after, haside⟩ := exists_putAside hbackups hplaces hread
        exact ⟨true, after, run_rotate_of_putAside hread (not_lt.1 hshort) haside,
          (isPutAside_of_putAside hbackups hread haside).directories⟩

/-- Where the slots have places, no event fails. -/
theorem exists_performAll (hplaces : HasPlaces store path backups) (hbackups : 0 < backups)
    (bound : ℕ) (events : List Event) :
    ∃ answers after,
      (performAll access path bound backups events).run.run store = (.ok answers, after) := by
  induction events generalizing store with
  | nil => exact ⟨[], store, rfl⟩
  | cons event events ih =>
    obtain ⟨answer, between, hevent, hdirectories⟩ := exists_perform hplaces hbackups bound event
    obtain ⟨answers, after, hevents⟩ := ih (hplaces.congr hdirectories)
    refine ⟨answer :: answers, after, ?_⟩
    rw [performAll_cons]
    exact run_bind_eq_ok_iff.2 ⟨answer, between, hevent,
      run_bind_eq_ok_iff.2 ⟨answers, after, hevents, rfl⟩⟩

/-- What a rotation does, and what is there after a run.

A log that is not there or has not grown to its bound stays, and nothing else changes either.
Otherwise, unless an operation on files fails, the log becomes the first backup, each backup the
next one, and the last one is gone, while all that has a higher number or another name stays.

Where there were no backups at first, a run leaves the latest ones of the logs that it has put
aside, in this order and as many as are to be kept.  Nothing fails where there are places for all
slots. -/
theorem rotate_keeps_latest (store : FileStore) (path : String) (bound : ℕ) {backups : ℕ}
    (hbackups : 0 < backups) :
    (store.readAt path = .error .missing ∨
        (∃ octets, store.readAt path = .ok octets ∧ octets.length < bound) →
      (rotate access path bound backups).run.run store = (.ok false, store)) ∧
    (∀ octets, store.readAt path = .ok octets → bound ≤ octets.length →
      (HasPlaces store path backups →
        ∃ after, (rotate access path bound backups).run.run store = (.ok true, after)) ∧
      ∀ answer after, (rotate access path bound backups).run.run store = (.ok answer, after) →
        answer = true ∧
        after.readAt path = .error .missing ∧
        after.readAt (backupPath path 1) = .ok octets ∧
        (∀ number, 0 < number → number < backups →
          after.contentAt (backupPath path (number + 1)) =
            store.contentAt (backupPath path number)) ∧
        (∀ number, backups < number →
          after.readAt (backupPath path number) = store.readAt (backupPath path number)) ∧
        after.directories = store.directories ∧
        ∀ location, (∀ number ≤ backups, store.placeAt (slotPath path number) ≠ .ok location) →
          after.content? location = store.content? location) ∧
    ((∀ number, store.contentAt (backupPath path (number + 1)) = none) → ∀ events,
      (HasPlaces store path backups → ∃ answers after,
        (performAll access path bound backups events).run.run store = (.ok answers, after)) ∧
      ∀ answers after,
        (performAll access path bound backups events).run.run store = (.ok answers, after) →
        let history := History.run bound ⟨store.contentAt path, []⟩ events
        answers.count true = history.aside.length ∧
        after.contentAt path = history.current ∧
        ∀ number, ((after.contentAt (backupPath path (number + 1))).isSome ↔
            number < min (answers.count true) backups) ∧
          (number < backups →
            after.contentAt (backupPath path (number + 1)) = history.aside[number]?)) := by
  refine ⟨run_rotate_of_short backups, fun octets hread hlong => ⟨fun hplaces => ?_,
    fun answer after hrun => ?_⟩, fun hnone events => ⟨fun hplaces => ?_,
    fun answers after hrun => ?_⟩⟩
  · obtain ⟨after, haside⟩ := exists_putAside hbackups hplaces hread
    exact ⟨after, run_rotate_of_putAside hread hlong haside⟩
  · rcases rotate_cases hrun with ⟨-, -, hshort⟩ | ⟨rfl, hrun, -⟩
    · exact absurd (hshort octets hread) (not_lt.2 hlong)
    · have haside := isPutAside_of_putAside hbackups hread hrun
      refine ⟨rfl, haside.readAt_log, ?_, fun number hpositive hnumber => ?_,
        fun number hnumber => ?_, haside.directories, haside.content?_of_ne⟩
      · rw [← FileStore.contentAt_eq_some_iff] at hread ⊢
        exact (haside.contentAt_succ 0 hbackups).trans hread
      · obtain ⟨number, rfl⟩ := Nat.exists_eq_add_one_of_ne_zero hpositive.ne'
        exact haside.contentAt_succ (number + 1) hnumber
      · obtain ⟨number, rfl⟩ := Nat.exists_eq_add_one_of_ne_zero (Nat.ne_zero_of_lt hnumber)
        exact haside.readAt_of_gt (number + 1) hnumber
  · exact exists_performAll hplaces hbackups bound events
  · intro history
    have hstart : Tracks path backups ⟨store.contentAt path, []⟩ store :=
      ⟨rfl, fun number => by rw [hnone, List.getElem?_nil, ite_self]⟩
    obtain ⟨htracks, hlength⟩ := tracks_performAll hbackups hstart hrun
    have hcount : answers.count true = history.aside.length := by
      rw [hlength, List.length_nil, Nat.zero_add]
    refine ⟨hcount, htracks.contentAt_log, fun number => ⟨?_, fun hnumber => ?_⟩⟩
    · rw [htracks.contentAt_backup, hcount, lt_min_iff]
      split
      case isTrue hnumber => simp [hnumber, history]
      case isFalse hnumber => simp [hnumber]
    · rw [htracks.contentAt_backup, if_pos hnumber]

/-- A log moves to the place of a backup that moves up in turn, and the one above these stays.  Of
three logs that a run puts aside, two are kept. -/
theorem rotate_keeps_latest_two :
    let full : FileStore :=
      ⟨[], [(["a.log"], [1, 2]), (["a.log.1"], [3]), (["a.log.3"], [4])]⟩
    let events : List Event :=
      [.rotate, .write [1, 2], .rotate, .write [3, 4], .rotate, .write [5, 6], .rotate, .write [7]]
    HasPlaces full "a.log" 2 ∧ full.readAt "a.log" = .ok [1, 2] ∧
    (∃ after, (rotate access "a.log" 2 2).run.run full = (.ok true, after) ∧
      after.readAt "a.log" = .error .missing ∧ after.readAt (backupPath "a.log" 1) = .ok [1, 2] ∧
      after.contentAt (backupPath "a.log" 2) = some [3] ∧
      after.readAt (backupPath "a.log" 3) = .ok [4]) ∧
    HasPlaces .empty "a.log" 2 ∧ FileStore.empty.readAt "a.log" = .error .missing ∧
    (rotate access "a.log" 2 2).run.run .empty = (.ok false, .empty) ∧
    (∀ number, FileStore.empty.contentAt (backupPath "a.log" (number + 1)) = none) ∧
    ∃ answers after,
      (performAll access "a.log" 2 2 events).run.run .empty = (.ok answers, after) ∧
      answers.count true = 3 ∧ after.contentAt "a.log" = some [7] ∧
      after.contentAt (backupPath "a.log" 1) = some [5, 6] ∧
      after.contentAt (backupPath "a.log" 2) = some [3, 4] ∧
      (after.contentAt (backupPath "a.log" 3)).isSome = false := by
  intro full events
  have hempty : HasPlaces .empty "a.log" 2 := by
    intro number hnumber
    interval_cases number <;> exact ⟨_, rfl⟩
  have hfull : HasPlaces full "a.log" 2 := hempty.congr rfl
  have hread : full.readAt "a.log" = .ok [1, 2] := by cbv
  have hmissing : FileStore.empty.readAt "a.log" = .error .missing := by cbv
  have hnone := fun number => FileStore.contentAt_empty (backupPath "a.log" (number + 1))
  obtain ⟨hsuccess, hlaw⟩ :=
    (rotate_keeps_latest full "a.log" 2 (show 0 < 2 by decide)).2.1 [1, 2] hread le_rfl
  obtain ⟨hshort, -, hruns⟩ := rotate_keeps_latest .empty "a.log" 2 (show 0 < 2 by decide)
  refine ⟨hfull, hread, ?_, hempty, hmissing, hshort (.inl hmissing), hnone, ?_⟩
  · obtain ⟨after, hrun⟩ := hsuccess hfull
    obtain ⟨-, hlog, hfirst, hsecond, habove, -⟩ := hlaw true after hrun
    refine ⟨after, hrun, hlog, hfirst, ?_, ?_⟩
    · rw [hsecond 1 (by decide) (by decide)]
      cbv
    · rw [habove 3 (by decide)]
      cbv
  · obtain ⟨answers, after, hrun⟩ := (hruns hnone events).1 hempty
    obtain ⟨hcount, hcurrent, hbackups⟩ := (hruns hnone events).2 answers after hrun
    have hhistory : History.run 2 ⟨FileStore.empty.contentAt "a.log", []⟩ events =
        ⟨some [7], [[5, 6], [3, 4], [1, 2]]⟩ := by cbv
    rw [hhistory] at hcount hcurrent hbackups
    refine ⟨answers, after, hrun, hcount, hcurrent, (hbackups 0).2 (by decide),
      (hbackups 1).2 (by decide), ?_⟩
    rw [Bool.eq_false_iff, ne_eq, (hbackups 2).1]
    omega

end EvidenceSynthesis.Rotation
