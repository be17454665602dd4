import EvidenceSynthesis.Proofs.Search.PoolCounts
import Mathlib

/-!
# Candidates that are drawn in a row

A candidate that is drawn several times in a row climbs.  Each draw leaves it where it is or lifts
it past the entry in front of it, and the other entries stay as they are.

An entry in front holds it up for as long as its count is not exceeded.  Once the candidate was
counted as often as each entry that stood in front of it, every further draw lifts it, until it is
at the front.  Draws that are needed are thus of two kinds: those that make up for the greatest
count in front, and one for each place (`placeOf_le`).

`HasClimbed` is what holds all along: the entries in front are still the first ones of those that
were in front, and the candidate has passed the others.
-/

namespace EvidenceSynthesis

/-- An entry that is counted `n` times more. -/
def PoolEntry.moreBy (entry : PoolEntry) (n : Nat) : PoolEntry :=
  { entry with count := entry.count + UInt32.ofNat n }

theorem PoolEntry.moreBy_succ (entry : PoolEntry) (n : Nat) :
    { entry.moreBy n with count := (entry.moreBy n).count + 1 } = entry.moreBy (n + 1) := by
  unfold moreBy
  simp only [UInt32.ofNat_add, UInt32.add_assoc]
  rfl

/-- A count grows by the further draws as long as the word holds it. -/
theorem PoolEntry.toNat_count_moreBy {entry : PoolEntry} {n : Nat}
    (h : entry.count.toNat + n < Word.bound32) :
    (entry.moreBy n).count.toNat = entry.count.toNat + n := by
  unfold Word.bound32 at h
  have hn : (UInt32.ofNat n).toNat = n := UInt32.toNat_ofNat_of_lt (by simp [UInt32.size]; omega)
  rw [moreBy, UInt32.toNat_add, hn]
  exact Nat.mod_eq_of_lt h

namespace Pool

/-- The greatest count of some entries, and zero if there is none. -/
def greatestCount (entries : List PoolEntry) : Nat :=
  (entries.map fun entry => entry.count.toNat).max?.getD 0

theorem le_greatestCount {entries : List PoolEntry} {entry : PoolEntry} (h : entry ∈ entries) :
    entry.count.toNat ≤ greatestCount entries :=
  List.le_max?_getD_of_mem (List.mem_map_of_mem h)

/-- The place of the first entry with the tree of a candidate. -/
def placeOf (pool : Pool) (candidate : Candidate) : Nat :=
  pool.entries.findIdx fun entry => entry.candidate.same candidate

/-- How far an entry has come that stood between `before` and `after` and was counted `n` times
more: it stands behind `front`, which is the first part of `before`, and has passed the rest. -/
def HasClimbed (before after : List PoolEntry) (entry : PoolEntry) (n : Nat)
    (front : List PoolEntry) (pool : Pool) : Prop :=
  ∃ passed, before = front ++ passed ∧ pool.entries = front ++ entry.moreBy n :: (passed ++ after)

section

variable {before after front : List PoolEntry} {entry : PoolEntry} {n : Nat} {pool : Pool}
  {candidate : Candidate}

theorem hasClimbed_zero (hentries : pool.entries = before ++ entry :: after) :
    HasClimbed before after entry 0 before pool := by
  refine ⟨[], (List.append_nil before).symm, ?_⟩
  rw [hentries, PoolEntry.moreBy]
  simp

theorem HasClimbed.length_le (h : HasClimbed before after entry n front pool) :
    front.length ≤ before.length := by
  obtain ⟨passed, rfl, -⟩ := h
  rw [List.length_append]
  exact Nat.le_add_right _ _

/-- Where the climbing entry stands now. -/
theorem HasClimbed.getElem?_entries (h : HasClimbed before after entry n front pool) :
    pool.entries[front.length]? = some (entry.moreBy n) := by
  obtain ⟨passed, -, hentries⟩ := h
  rw [hentries, List.getElem?_append_right (Nat.le_refl _), Nat.sub_self]
  rfl

/-- The other entries have not changed. -/
theorem HasClimbed.eraseIdx_entries (h : HasClimbed before after entry n front pool) :
    pool.entries.eraseIdx front.length = before ++ after := by
  obtain ⟨passed, rfl, hentries⟩ := h
  rw [hentries, List.eraseIdx_append_of_length_le (Nat.le_refl _), Nat.sub_self,
    List.eraseIdx_cons_zero, List.append_assoc]

variable (hothers : ∀ other ∈ before ++ after, other.candidate.same candidate = false)
  (hsame : entry.candidate.same candidate = true)

include hothers hsame

theorem HasClimbed.placeOf_eq (h : HasClimbed before after entry n front pool) :
    pool.placeOf candidate = front.length := by
  obtain ⟨passed, rfl, hentries⟩ := h
  have hfront : front.findIdx (fun other => other.candidate.same candidate) = front.length :=
    List.findIdx_eq_length.2 fun other hother => hothers other (by simp [hother])
  unfold placeOf
  rw [hentries, List.findIdx_append, hfront, if_neg (Nat.lt_irrefl _), List.findIdx_cons]
  simp [PoolEntry.moreBy, hsame]

/-- One more draw leaves the entry in its place, if it does not exceed the one in front of it, or
lifts it past that one. -/
theorem HasClimbed.observe (h : HasClimbed before after entry n front pool) :
    ∃ rest, HasClimbed before after entry (n + 1) rest (pool.observe candidate).2 ∧
      (pool.observe candidate).1.position = rest.length ∧
      (rest = front ∧ (∀ neighbour ∈ front.getLast?,
          ¬ neighbour.count < (entry.moreBy (n + 1)).count) ∨
        ∃ neighbour, front = rest ++ [neighbour]) := by
  obtain ⟨passed, rfl, hentries⟩ := h
  have hfront : ∀ other ∈ front, other.candidate.same candidate = false := fun other hother =>
    hothers other (by simp [hother])
  have hobserve := observe_of_split hentries hfront hsame
  rw [entry.moreBy_succ n] at hobserve
  rcases List.eq_nil_or_concat front with rfl | ⟨earlier, neighbour, rfl⟩
  · rw [hobserve]
    exact ⟨[], ⟨passed, rfl, rfl⟩, rfl, Or.inl ⟨rfl, by simp⟩⟩
  · rw [List.concat_eq_append] at *
    rw [hobserve, place_append_singleton]
    by_cases hlt : neighbour.count < (entry.moreBy (n + 1)).count
    · rw [if_pos hlt]
      exact ⟨earlier, ⟨neighbour :: passed, by simp, rfl⟩, rfl, Or.inr ⟨neighbour, rfl⟩⟩
    · rw [if_neg hlt]
      refine ⟨earlier ++ [neighbour], ⟨passed, rfl, by simp⟩, by simp, Or.inl ⟨rfl, ?_⟩⟩
      simpa using hlt

/-- After any number of draws in a row the entry has climbed somewhere. -/
theorem exists_hasClimbed (hentries : pool.entries = before ++ entry :: after) (n : Nat) :
    ∃ front, HasClimbed before after entry n front
      (pool.observeAll (List.replicate n candidate)) := by
  induction n with
  | zero => exact ⟨before, hasClimbed_zero hentries⟩
  | succ n ih =>
    obtain ⟨front, hfront⟩ := ih
    obtain ⟨rest, hrest, -⟩ := hfront.observe hothers hsame
    rw [List.replicate_succ', observeAll_append_singleton]
    exact ⟨rest, hrest⟩

/-- Each draw that is not needed to make up for the greatest count in front lifts the entry. -/
theorem placeOf_le (hentries : pool.entries = before ++ entry :: after)
    (hcount : entry.count.toNat + n < Word.bound32) :
    (pool.observeAll (List.replicate n candidate)).placeOf candidate ≤
      before.length - (n - (greatestCount before - entry.count.toNat)) := by
  induction n with
  | zero =>
    rw [Nat.zero_sub, Nat.sub_zero]
    have hstart := hasClimbed_zero hentries
    exact Nat.le_of_eq (hstart.placeOf_eq hothers hsame)
  | succ n ih =>
    have hbefore := ih (by omega)
    obtain ⟨front, hfront⟩ := exists_hasClimbed hothers hsame hentries n
    obtain ⟨rest, hrest, -, hmove⟩ := hfront.observe hothers hsame
    rw [List.replicate_succ', observeAll_append_singleton, hrest.placeOf_eq hothers hsame]
    rw [hfront.placeOf_eq hothers hsame] at hbefore
    rcases hmove with ⟨rfl, hheld⟩ | ⟨neighbour, rfl⟩
    · -- either nothing is in front, or what is in front is not exceeded yet
      rcases List.eq_nil_or_concat rest with rfl | ⟨earlier, neighbour, rfl⟩
      · exact Nat.zero_le _
      · have hlt := hheld neighbour (by simp)
        rw [UInt32.lt_iff_toNat_lt, PoolEntry.toNat_count_moreBy hcount] at hlt
        have hneighbour : neighbour ∈ before := by
          obtain ⟨passed, rfl, -⟩ := hfront
          simp
        have hgreatest := le_greatestCount hneighbour
        have hlength := hfront.length_le
        omega
    · rw [List.length_append, List.length_singleton] at hbefore
      omega

end

/-! ### Runs -/

/-- A candidate of a run that is drawn again and again.  As long as its count stays a word, its
entry counts these draws, and it is at the front after as many of them as it lacks of the greatest
count in front of it, and one more for each place.  Each draw leaves it in its place or lifts it by
one, and reports where it is; the other entries stay what they were, in the same order. -/
theorem reaches_front (draws : List Candidate) {i : Nat} {entry : PoolEntry}
    (hentry : (empty.observeAll draws).entries[i]? = some entry) {candidate : Candidate}
    (hsame : entry.candidate.same candidate = true) :
    let pool := empty.observeAll draws
    let needed := greatestCount (pool.entries.take i) - entry.count.toNat + i
    let drawn (n : Nat) := pool.observeAll (List.replicate n candidate)
    pool.placeOf candidate = i ∧
    (∀ n, entry.count.toNat + n < Word.bound32 →
      (needed ≤ n → (drawn n).placeOf candidate = 0) ∧
        (∃ found, (drawn n).entries[(drawn n).placeOf candidate]? = some found ∧
          found.candidate = entry.candidate ∧ found.count.toNat = entry.count.toNat + n)) ∧
    ∀ n, drawn (n + 1) = ((drawn n).observe candidate).2 ∧
      ((drawn n).observe candidate).1.position = (drawn (n + 1)).placeOf candidate ∧
      (drawn (n + 1)).placeOf candidate ≤ (drawn n).placeOf candidate ∧
      (drawn n).placeOf candidate ≤ (drawn (n + 1)).placeOf candidate + 1 ∧
      (drawn n).entries.eraseIdx ((drawn n).placeOf candidate) = pool.entries.eraseIdx i := by
  intro pool needed drawn
  obtain ⟨hi, hget⟩ := List.getElem?_eq_some_iff.1 hentry
  have hentries : pool.entries = pool.entries.take i ++ entry :: pool.entries.drop (i + 1) := by
    rw [← hget, List.getElem_cons_drop, List.take_append_drop]
  have hlength : (pool.entries.take i).length = i := List.length_take_of_le (Nat.le_of_lt hi)
  have hothers := (reflects_observeAll draws).same_eq_false_of_split hentries hsame
  have hclimbed := exists_hasClimbed hothers hsame hentries
  refine ⟨?_, fun n hcount => ⟨fun hneeded => ?_, ?_⟩, fun n => ?_⟩
  · rw [(hasClimbed_zero hentries).placeOf_eq hothers hsame, hlength]
  · have hplace := placeOf_le hothers hsame hentries hcount
    rw [hlength] at hplace
    exact Nat.le_zero.1 (hplace.trans (by omega))
  · obtain ⟨front, hfront⟩ := hclimbed n
    refine ⟨entry.moreBy n, ?_, rfl, PoolEntry.toNat_count_moreBy hcount⟩
    rw [hfront.placeOf_eq hothers hsame]
    exact hfront.getElem?_entries
  · obtain ⟨front, hfront⟩ := hclimbed n
    obtain ⟨rest, hrest, hposition, hmove⟩ := hfront.observe hothers hsame
    have hnext : drawn (n + 1) = ((drawn n).observe candidate).2 := by
      simp only [drawn, List.replicate_succ', observeAll_append_singleton]
    have hnow : (drawn n).placeOf candidate = front.length := hfront.placeOf_eq hothers hsame
    have hthen : (drawn (n + 1)).placeOf candidate = rest.length := by
      rw [hnext]
      exact hrest.placeOf_eq hothers hsame
    have hlengths : rest.length ≤ front.length ∧ front.length ≤ rest.length + 1 := by
      rcases hmove with ⟨rfl, -⟩ | ⟨neighbour, rfl⟩
      · exact ⟨Nat.le_refl _, Nat.le_succ _⟩
      · simp
    refine ⟨hnext, hposition.trans hthen.symm, ?_, ?_, ?_⟩
    · rw [hthen, hnow]
      exact hlengths.1
    · rw [hthen, hnow]
      exact hlengths.2
    · rw [hnow]
      refine hfront.eraseIdx_entries.trans ?_
      rw [List.eraseIdx_eq_take_drop_succ]

/-- Of three candidates the last one is drawn four times in a row. -/
theorem reaches_front_four :
    let candidate (kind : String) := Candidate.ofDraw (.single kind) []
    let pool := empty.observeAll (["A", "A", "A", "B", "C"].map candidate)
    pool.entries[2]? = some ⟨candidate "C", 1⟩ ∧
      (candidate "C").same (candidate "C") = true ∧
      (1 : UInt32).toNat + 4 < Word.bound32 ∧ greatestCount (pool.entries.take 2) - 1 + 2 ≤ 4 ∧
      (pool.observeAll (List.replicate 4 (candidate "C"))).placeOf (candidate "C") = 0 := by
  intro candidate pool
  have hentry : pool.entries[2]? = some ⟨candidate "C", 1⟩ := rfl
  have hsame : (candidate "C").same (candidate "C") = true := Candidate.same_refl _
  have hcount : (1 : UInt32).toNat + 4 < Word.bound32 := by decide
  have hneeded : greatestCount (pool.entries.take 2) - 1 + 2 ≤ 4 := by decide
  have hfront := (reaches_front _ hentry hsame).2.1 4 hcount
  exact ⟨hentry, hsame, hcount, hneeded, hfront.1 hneeded⟩

end Pool

end EvidenceSynthesis
