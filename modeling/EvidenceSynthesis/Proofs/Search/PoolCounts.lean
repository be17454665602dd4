import EvidenceSynthesis.Proofs.Json.Sameness
import EvidenceSynthesis.Search.Pool
import EvidenceSynthesis.Word
import Mathlib

/-!
# What a pool holds after its draws

A pool merges draws of one tree into one entry and moves entries past each other while it
counts.  `Pool.Reflects` says what must be true of the entries whatever their order is:
they differ in their trees, every draw has its entry, an entry holds the first candidate
that was drawn with its tree, and its count is the number of those draws, as a 32-bit
word.

None of these depends on the order of the entries, so a swap cannot break them
(`Reflects.of_perm`).  One draw keeps them (`Reflects.observe`), and thus every run of
draws establishes them (`reflects_observeAll`).  As long as there are fewer draws than
words, the words are the numbers.
-/

namespace EvidenceSynthesis

namespace Pool

/-! ### One draw -/

/-- A draw counts one more for the first entry that has its tree and puts that entry in its
place. -/
theorem observe_of_split {pool : Pool} {candidate : Candidate} {before after : List PoolEntry}
    {entry : PoolEntry} (hentries : pool.entries = before ++ entry :: after)
    (hbefore : ∀ earlier ∈ before, earlier.candidate.same candidate = false)
    (hsame : entry.candidate.same candidate = true) :
    pool.observe candidate =
      (⟨(place before { entry with count := entry.count + 1 } after).1, entry.count + 1, false⟩,
        ⟨(place before { entry with count := entry.count + 1 } after).2⟩) := by
  have hskipped : ∀ earlier ∈ before, (!earlier.candidate.same candidate) = true := by
    intro earlier hearlier
    rw [hbefore earlier hearlier, Bool.not_false]
  unfold observe
  rw [List.span_eq_takeWhile_dropWhile, hentries, List.takeWhile_append_of_pos hskipped,
    List.dropWhile_append_of_pos hskipped, List.takeWhile_cons_of_neg (by simp [hsame]),
    List.dropWhile_cons_of_neg (by simp [hsame]), List.append_nil]

/-- A draw either appends a candidate that is new, or counts one more for the first entry
that has its tree and puts that entry in its place. -/
theorem observe_cases (pool : Pool) (candidate : Candidate) :
    (∀ entry ∈ pool.entries, entry.candidate.same candidate = false) ∧
        pool.observe candidate =
          (⟨pool.size, 1, true⟩, ⟨pool.entries ++ [⟨candidate, 1⟩]⟩) ∨
      ∃ before entry after, pool.entries = before ++ entry :: after ∧
        (∀ earlier ∈ before, earlier.candidate.same candidate = false) ∧
        entry.candidate.same candidate = true ∧
        pool.observe candidate =
          (⟨(place before { entry with count := entry.count + 1 } after).1, entry.count + 1,
              false⟩,
            ⟨(place before { entry with count := entry.count + 1 } after).2⟩) := by
  have hbefore : ∀ entry ∈ pool.entries.takeWhile fun entry => !entry.candidate.same candidate,
      entry.candidate.same candidate = false := by
    intro entry hentry
    simpa using List.all_eq_true.1 List.all_takeWhile entry hentry
  have hsplit := List.takeWhile_append_dropWhile
    (p := fun entry => !entry.candidate.same candidate) (l := pool.entries)
  cases hafter : pool.entries.dropWhile fun entry => !entry.candidate.same candidate with
  | nil =>
    unfold observe
    rw [List.span_eq_takeWhile_dropWhile, hafter]
    rw [hafter, List.append_nil] at hsplit
    rw [hsplit] at hbefore ⊢
    exact Or.inl ⟨hbefore, rfl⟩
  | cons entry after =>
    have hentry := List.head?_dropWhile_not
      (fun entry : PoolEntry => !entry.candidate.same candidate) pool.entries
    rw [hafter] at hsplit hentry
    have hsame : entry.candidate.same candidate = true := by simpa using hentry
    exact Or.inr ⟨_, entry, after, hsplit.symm, hbefore, hsame,
      observe_of_split hsplit.symm hbefore hsame⟩

/-! ### The invariant -/

/-- What the entries of a pool say of the draws that were counted. -/
structure Reflects (pool : Pool) (candidates : List Candidate) : Prop where
  /-- No tree has two entries. -/
  distinct : (pool.entries.map (·.candidate)).Pairwise fun a b => a.same b = false
  /-- Every draw has its entry. -/
  complete : ∀ candidate ∈ candidates, ∃ a ∈ pool.entries.map (·.candidate), a.same candidate = true
  /-- An entry holds the first candidate with its tree. -/
  first : ∀ a ∈ pool.entries.map (·.candidate), candidates.find? a.same = some a
  /-- A count is the number of draws of the tree, as a word. -/
  count : ∀ entry ∈ pool.entries,
    entry.count = UInt32.ofNat (candidates.countP entry.candidate.same)

theorem reflects_empty : empty.Reflects [] where
  distinct := .nil
  complete := by simp
  first := by simp [empty]
  count := by simp [empty]

/-- The order of the entries has no part in the invariant. -/
theorem Reflects.of_perm {pool other : Pool} {candidates : List Candidate}
    (h : pool.Reflects candidates) (hperm : pool.entries.Perm other.entries) :
    other.Reflects candidates := by
  have hcandidates := hperm.map (·.candidate)
  refine ⟨?_, ?_, ?_, ?_⟩
  · refine (hcandidates.pairwise_iff ?_).1 h.distinct
    intro a b hab
    rw [Candidate.same_comm, hab]
  · intro candidate hcandidate
    obtain ⟨a, ha, hsame⟩ := h.complete candidate hcandidate
    exact ⟨a, hcandidates.mem_iff.1 ha, hsame⟩
  · intro a ha
    exact h.first a (hcandidates.mem_iff.2 ha)
  · intro entry hentry
    exact h.count entry (hperm.mem_iff.2 hentry)

/-- A tree without an entry is one that no draw had. -/
theorem Reflects.same_eq_false_of_new {pool : Pool} {candidates : List Candidate}
    {candidate : Candidate} (h : pool.Reflects candidates)
    (hnew : ∀ entry ∈ pool.entries, entry.candidate.same candidate = false) :
    ∀ other ∈ candidates, candidate.same other = false := by
  intro other hother
  obtain ⟨a, ha, hsame⟩ := h.complete other hother
  obtain ⟨entry, hentry, rfl⟩ := List.mem_map.1 ha
  rw [Candidate.same_comm, ← Candidate.same_congr_left hsame]
  exact hnew entry hentry

/-- A tree that no draw had gets an entry of its own. -/
theorem Reflects.append {pool : Pool} {candidates : List Candidate} {candidate : Candidate}
    (h : pool.Reflects candidates)
    (hnew : ∀ entry ∈ pool.entries, entry.candidate.same candidate = false) :
    Reflects ⟨pool.entries ++ [⟨candidate, 1⟩]⟩ (candidates ++ [candidate]) := by
  have hnone := h.same_eq_false_of_new hnew
  refine ⟨?_, ?_, ?_, ?_⟩
  · rw [List.map_append, List.pairwise_append]
    refine ⟨h.distinct, by simp, ?_⟩
    intro a ha b hb
    obtain ⟨entry, hentry, rfl⟩ := List.mem_map.1 ha
    rw [show b = candidate by simpa using hb]
    exact hnew entry hentry
  · intro other hother
    rcases List.mem_append.1 hother with hold | hlast
    · obtain ⟨a, ha, hsame⟩ := h.complete other hold
      exact ⟨a, by simpa using Or.inl (by simpa using ha), hsame⟩
    · rw [List.mem_singleton.1 hlast]
      exact ⟨candidate, by simp, candidate.same_refl⟩
  · intro a ha
    rw [List.map_append, List.mem_append] at ha
    rw [List.find?_append]
    rcases ha with hold | hlast
    · rw [h.first a hold, Option.some_or]
    · rw [show a = candidate by simpa using hlast, List.find?_eq_none.2 (by simpa using hnone)]
      simp [candidate.same_refl]
  · intro entry hentry
    rw [List.countP_append]
    rcases List.mem_append.1 hentry with hold | hlast
    · simp [h.count entry hold, hnew entry hold]
    · rw [List.mem_singleton.1 hlast, List.countP_eq_zero.2 (by simpa using hnone)]
      simp [candidate.same_refl]

/-- Only one entry has the tree of a draw. -/
theorem Reflects.same_eq_false_of_split {pool : Pool} {candidates : List Candidate}
    {candidate : Candidate} {before after : List PoolEntry} {entry : PoolEntry}
    (h : pool.Reflects candidates) (hentries : pool.entries = before ++ entry :: after)
    (hsame : entry.candidate.same candidate = true) :
    ∀ other ∈ before ++ after, other.candidate.same candidate = false := by
  have hdistinct := h.distinct
  have hmiddle : pool.entries.Perm (entry :: (before ++ after)) := by
    rw [hentries]
    exact List.perm_middle
  rw [(hmiddle.map (·.candidate)).pairwise_iff (fun hab => by rw [Candidate.same_comm, hab]),
    List.map_cons, List.pairwise_cons] at hdistinct
  intro other hother
  rw [Candidate.same_comm, ← Candidate.same_congr_left hsame]
  exact hdistinct.1 _ (List.mem_map_of_mem hother)

/-- A tree that was drawn before counts one more. -/
theorem Reflects.count_one_more {before after : List PoolEntry} {entry : PoolEntry}
    {candidates : List Candidate} {candidate : Candidate}
    (h : Reflects ⟨before ++ entry :: after⟩ candidates)
    (hsame : entry.candidate.same candidate = true) :
    Reflects ⟨before ++ { entry with count := entry.count + 1 } :: after⟩
      (candidates ++ [candidate]) := by
  have hcandidates :
      (before ++ { entry with count := entry.count + 1 } :: after).map (·.candidate) =
        (before ++ entry :: after).map (·.candidate) := by
    simp
  have hothers := h.same_eq_false_of_split rfl hsame
  refine ⟨?_, ?_, ?_, ?_⟩
  · rw [hcandidates]
    exact h.distinct
  · rw [hcandidates]
    intro other hother
    rcases List.mem_append.1 hother with hold | hlast
    · exact h.complete other hold
    · rw [List.mem_singleton.1 hlast]
      exact ⟨entry.candidate, by simp, hsame⟩
  · rw [hcandidates]
    intro a ha
    rw [List.find?_append, h.first a ha, Option.some_or]
  · intro other hother
    rw [List.countP_append]
    rcases List.mem_append.1 hother with hbefore | hafter
    · rw [h.count other (List.mem_append_left _ hbefore)]
      simp [hothers other (List.mem_append_left _ hbefore)]
    · rcases List.mem_cons.1 hafter with rfl | hafter
      · rw [h.count entry (by simp)]
        simp [hsame, UInt32.ofNat_add]
      · rw [h.count other (by simp [hafter])]
        simp [hothers other (List.mem_append_right _ hafter)]

/-- Observing a draw adds it to the draws that a pool reflects. -/
theorem Reflects.observe {pool : Pool} {candidates : List Candidate}
    (h : pool.Reflects candidates) (candidate : Candidate) :
    (pool.observe candidate).2.Reflects (candidates ++ [candidate]) := by
  rcases observe_cases pool candidate with
    ⟨hnew, hobserve⟩ | ⟨before, entry, after, hentries, _, hsame, hobserve⟩
  · rw [hobserve]
    exact h.append hnew
  · rw [hobserve]
    have hbumped : Reflects ⟨before ++ { entry with count := entry.count + 1 } :: after⟩
        (candidates ++ [candidate]) := by
      refine Reflects.count_one_more ?_ hsame
      rw [← hentries]
      exact h
    exact hbumped.of_perm (place_perm before _ after).symm

/-- The pool of a run reflects all draws of it. -/
theorem reflects_observeAll (candidates : List Candidate) :
    (empty.observeAll candidates).Reflects candidates := by
  induction candidates using List.reverseRecOn with
  | nil => exact reflects_empty
  | append_singleton candidates candidate ih =>
    rw [observeAll_append_singleton]
    exact ih.observe candidate

/-! ### Counts as numbers -/

/-- Every pooled candidate was drawn. -/
theorem Reflects.mem_of_mem {pool : Pool} {candidates : List Candidate}
    (h : pool.Reflects candidates) {entry : PoolEntry} (hentry : entry ∈ pool.entries) :
    entry.candidate ∈ candidates :=
  List.mem_of_find?_eq_some (h.first _ (List.mem_map_of_mem hentry))

/-- Below the bound of words a count is the number of draws of its tree. -/
theorem Reflects.toNat_count {pool : Pool} {candidates : List Candidate}
    (h : pool.Reflects candidates) (hlength : candidates.length < Word.bound32)
    {entry : PoolEntry} (hentry : entry ∈ pool.entries) :
    entry.count.toNat = candidates.countP entry.candidate.same := by
  have hcount : candidates.countP entry.candidate.same ≤ candidates.length :=
    List.countP_le_length
  rw [h.count entry hentry, UInt32.toNat_ofNat']
  exact Nat.mod_eq_of_lt (Nat.lt_of_le_of_lt hcount hlength)

/-- Every tree in a pool was drawn. -/
theorem Reflects.countP_pos {pool : Pool} {candidates : List Candidate}
    (h : pool.Reflects candidates) {entry : PoolEntry} (hentry : entry ∈ pool.entries) :
    0 < candidates.countP entry.candidate.same :=
  List.countP_pos_iff.2 ⟨entry.candidate, h.mem_of_mem hentry, entry.candidate.same_refl⟩

/-- Below the bound of words a count goes up by one. -/
theorem Reflects.toNat_count_add_one {pool : Pool} {candidates : List Candidate}
    (h : pool.Reflects candidates) (hlength : candidates.length + 1 < Word.bound32)
    {entry : PoolEntry} (hentry : entry ∈ pool.entries) :
    (entry.count + 1).toNat = entry.count.toNat + 1 := by
  have hcount : entry.count.toNat ≤ candidates.length := by
    rw [h.toNat_count (by omega) hentry]
    exact List.countP_le_length
  rw [UInt32.toNat_add, UInt32.toNat_one]
  exact Nat.mod_eq_of_lt (Nat.lt_of_le_of_lt (Nat.add_le_add_right hcount 1) hlength)

/-- No count is zero. -/
theorem Reflects.one_le_toNat_count {pool : Pool} {candidates : List Candidate}
    (h : pool.Reflects candidates) (hlength : candidates.length < Word.bound32)
    {entry : PoolEntry} (hentry : entry ∈ pool.entries) : 1 ≤ entry.count.toNat := by
  rw [h.toNat_count hlength hentry]
  exact h.countP_pos hentry

/-- The sum of the counts. -/
def total (pool : Pool) : Nat :=
  (pool.counts.map UInt32.toNat).sum

theorem total_eq_of_perm {pool other : Pool} (hperm : pool.entries.Perm other.entries) :
    pool.total = other.total := by
  have hcounts := (hperm.map PoolEntry.count).map UInt32.toNat
  exact hcounts.sum_eq

/-- A draw adds one to the sum of the counts unless a count leaves the words. -/
theorem Reflects.total_observe {pool : Pool} {candidates : List Candidate}
    (h : pool.Reflects candidates) (hlength : candidates.length + 1 < Word.bound32)
    (candidate : Candidate) : (pool.observe candidate).2.total = pool.total + 1 := by
  rcases observe_cases pool candidate with
    ⟨_, hobserve⟩ | ⟨before, entry, after, hentries, _, _, hobserve⟩
  · rw [hobserve]
    simp [total, counts]
  · rw [hobserve, total_eq_of_perm (place_perm before _ after)]
    have hmem : entry ∈ pool.entries := by
      rw [hentries]
      simp
    have hnext := h.toNat_count_add_one hlength hmem
    simp only [total, counts, hentries, List.map_append, List.map_cons, List.sum_append,
      List.sum_cons, hnext]
    omega

/-- The counts of a pool add up to the number of draws. -/
theorem total_observeAll {candidates : List Candidate}
    (hlength : candidates.length < Word.bound32) :
    (empty.observeAll candidates).total = candidates.length := by
  induction candidates using List.reverseRecOn with
  | nil => rfl
  | append_singleton candidates candidate ih =>
    rw [List.length_append, List.length_singleton] at hlength ⊢
    rw [observeAll_append_singleton,
      (reflects_observeAll candidates).total_observe hlength, ih (by omega)]

/-! ### What is reported of a draw -/

/-- An observation names the entry of its candidate and the count of that entry. -/
theorem getElem?_observe (pool : Pool) (candidate : Candidate) :
    ∃ entry, (pool.observe candidate).2.entries[(pool.observe candidate).1.position]? = some entry ∧
      entry.candidate.same candidate = true ∧ entry.count = (pool.observe candidate).1.count := by
  rcases observe_cases pool candidate with
    ⟨_, hobserve⟩ | ⟨before, entry, after, _, _, hsame, hobserve⟩
  · rw [hobserve]
    exact ⟨⟨candidate, 1⟩, by simp [size], candidate.same_refl, rfl⟩
  · rw [hobserve]
    exact ⟨_, getElem?_place before _ after, hsame, rfl⟩

/-- A tree is reported as new if no draw before had it. -/
theorem Reflects.firstSeen_iff {pool : Pool} {candidates : List Candidate}
    (h : pool.Reflects candidates) (candidate : Candidate) :
    (pool.observe candidate).1.firstSeen = true ↔
      ∀ earlier ∈ candidates, earlier.same candidate = false := by
  rcases observe_cases pool candidate with
    ⟨hnew, hobserve⟩ | ⟨before, entry, after, hentries, _, hsame, hobserve⟩
  · rw [hobserve]
    refine iff_of_true rfl fun earlier hearlier => ?_
    rw [Candidate.same_comm]
    exact h.same_eq_false_of_new hnew earlier hearlier
  · rw [hobserve]
    refine iff_of_false (by simp) fun hnone => ?_
    have hmem : entry ∈ pool.entries := by
      rw [hentries]
      simp
    rw [hnone entry.candidate (h.mem_of_mem hmem)] at hsame
    exact absurd hsame (by simp)

/-! ### Order of draws -/

/-- Every tree of a pool is in the other pool, with the same count. -/
def IsWithin (pool other : Pool) : Prop :=
  ∀ entry ∈ pool.entries, ∃ found ∈ other.entries,
    entry.candidate.same found.candidate = true ∧ entry.count = found.count

/-- Draws that come in another order leave the same trees with the same counts. -/
theorem Reflects.isWithin {pool other : Pool} {candidates others : List Candidate}
    (h : pool.Reflects candidates) (hother : other.Reflects others)
    (hperm : candidates.Perm others) : pool.IsWithin other := by
  intro entry hentry
  obtain ⟨a, ha, hsame⟩ := hother.complete _ (hperm.mem_iff.1 (h.mem_of_mem hentry))
  obtain ⟨found, hfound, rfl⟩ := List.mem_map.1 ha
  rw [Candidate.same_comm] at hsame
  refine ⟨found, hfound, hsame, ?_⟩
  have htests : entry.candidate.same = found.candidate.same := Candidate.same_eq_same hsame
  rw [h.count entry hentry, hother.count found hfound, htests, hperm.countP_eq]

/-! ### Main results -/

/-- The candidates that are read off a pool stand in its order; each has the tree and the
calls of its entry, and the count of the entry. -/
theorem forall₂_ranked (pool : Pool) :
    List.Forall₂
      (fun entry candidate =>
        candidate.tree = entry.candidate.tree ∧ candidate.calls = entry.candidate.calls ∧
          candidate.count = entry.count)
      pool.entries pool.ranked := by
  rw [ranked, List.forall₂_map_right_iff, List.forall₂_same]
  exact fun _ _ => ⟨rfl, rfl, rfl⟩

/-- The pool of fewer than `2 ^ 32` draws: trees are compared by equality of values; no two
entries have equal trees; every draw has an entry; the count of an entry is the number of
draws with its tree, of which it holds the first one; what is reported of a draw is true of
the pool right after it; reading off the pool keeps order and counts; and the order of the
draws has no effect on the trees and their counts. -/
theorem observeAll_holds_classes (candidates : List Candidate)
    (hlength : candidates.length < Word.bound32) :
    (∀ a b : Candidate,
      a.same b = true ↔ Json.Value.Equal a.tree.toValue b.tree.toValue) ∧
    ((empty.observeAll candidates).entries.Pairwise fun a b =>
      a.candidate.same b.candidate = false) ∧
    (∀ candidate ∈ candidates, ∃ entry ∈ (empty.observeAll candidates).entries,
      entry.candidate.same candidate = true) ∧
    (∀ entry ∈ (empty.observeAll candidates).entries,
      entry.count.toNat = candidates.countP entry.candidate.same ∧
        candidates.find? entry.candidate.same = some entry.candidate) ∧
    (∀ before candidate after, candidates = before ++ candidate :: after →
      let observed := (empty.observeAll before).observe candidate
      observed.2 = empty.observeAll (before ++ [candidate]) ∧
        (∃ entry, observed.2.entries[observed.1.position]? = some entry ∧
          entry.candidate.same candidate = true ∧ entry.count = observed.1.count) ∧
        (observed.1.firstSeen = true ↔
          ∀ earlier ∈ before, earlier.same candidate = false)) ∧
    List.Forall₂
      (fun entry candidate =>
        candidate.tree = entry.candidate.tree ∧ candidate.calls = entry.candidate.calls ∧
          candidate.count = entry.count)
      (empty.observeAll candidates).entries (empty.observeAll candidates).ranked ∧
    (∀ others : List Candidate, candidates.Perm others →
      (empty.observeAll candidates).IsWithin (empty.observeAll others) ∧
        (empty.observeAll others).IsWithin (empty.observeAll candidates)) := by
  have hreflects := reflects_observeAll candidates
  refine ⟨Candidate.same_iff_equal, ?_, ?_, ?_, ?_, forall₂_ranked _, ?_⟩
  · exact List.pairwise_map.1 hreflects.distinct
  · intro candidate hcandidate
    obtain ⟨a, ha, hsame⟩ := hreflects.complete candidate hcandidate
    obtain ⟨entry, hentry, rfl⟩ := List.mem_map.1 ha
    exact ⟨entry, hentry, hsame⟩
  · intro entry hentry
    exact ⟨hreflects.toNat_count hlength hentry,
      hreflects.first _ (List.mem_map_of_mem hentry)⟩
  · intro before candidate after _
    exact ⟨(observeAll_append_singleton empty before candidate).symm,
      getElem?_observe _ candidate, (reflects_observeAll before).firstSeen_iff candidate⟩
  · intro others hperm
    have hothers := reflects_observeAll others
    exact ⟨hreflects.isWithin hothers hperm, hothers.isWithin hreflects hperm.symm⟩

end Pool

/-! ### A small run -/

/-- The tree of a single node of a kind. -/
def Tree.single (kind : String) : Tree where
  members := [(nodeKey, .string kind)]
  distinct := ⟨by simp [Json.Members.names], trivial, trivial⟩

namespace Pool

/-- Three draws of two trees. -/
theorem observeAll_holds_classes_three :
    let draws := ["A", "B", "A"].map fun kind => Candidate.ofDraw (.single kind) []
    draws.length < Word.bound32 ∧
      ∀ entry ∈ (empty.observeAll draws).entries,
        entry.count.toNat = draws.countP entry.candidate.same := by
  intro draws
  have hlength : draws.length < Word.bound32 := by decide
  obtain ⟨_, _, _, hcounts, _⟩ := observeAll_holds_classes draws hlength
  exact ⟨hlength, fun entry hentry => (hcounts entry hentry).1⟩

end Pool

end EvidenceSynthesis
