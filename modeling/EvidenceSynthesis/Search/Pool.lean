import EvidenceSynthesis.Program.Candidate

/-!
# Ranked pools

A pool holds the different candidates of a run with the number of their draws.  A
candidate enters at the end.  Each further draw of it counts one more and lifts it by
one place if it now exceeds the candidate in front of it, so that ties keep the order
of the first draws.  The pool is not always sorted: the counts `1, 1, 1` and a draw of
the last candidate give `1, 2, 1`.
-/

namespace EvidenceSynthesis

/-- A candidate and the number of its draws. -/
structure PoolEntry where
  candidate : Candidate
  count : UInt32

/-- The different candidates of a run. -/
structure Pool where
  entries : List PoolEntry

/-- Where a draw has put its candidate. -/
structure Observation where
  position : Nat
  count : UInt32
  firstSeen : Bool
  deriving Repr, DecidableEq

namespace Pool

/-- The pool of no draws. -/
def empty : Pool := ⟨[]⟩

/-- The number of different candidates. -/
def size (pool : Pool) : Nat :=
  pool.entries.length

/-- Whether there is no candidate. -/
def isEmpty (pool : Pool) : Bool :=
  pool.entries.isEmpty

/-- The numbers of draws, in the order of the pool. -/
def counts (pool : Pool) : List UInt32 :=
  pool.entries.map (·.count)

/-- Puts an entry behind `before`, or in front of the last entry of `before` if it
exceeds that one; also says at which position. -/
def place (before : List PoolEntry) (entry : PoolEntry) (after : List PoolEntry) :
    Nat × List PoolEntry :=
  match before.reverse with
  | [] => (0, entry :: after)
  | neighbour :: earlier =>
    if neighbour.count < entry.count then
      (earlier.length, earlier.reverse ++ entry :: neighbour :: after)
    else
      (before.length, before ++ entry :: after)

/-- Counts one draw of a candidate. -/
def observe (pool : Pool) (candidate : Candidate) : Observation × Pool :=
  match pool.entries.span fun entry => !entry.candidate.same candidate with
  | (before, []) => (⟨before.length, 1, true⟩, ⟨before ++ [⟨candidate, 1⟩]⟩)
  | (before, entry :: after) =>
    let count := entry.count + 1
    let (position, entries) := place before { entry with count } after
    (⟨position, count, false⟩, ⟨entries⟩)

/-- The pool after draws of candidates. -/
def observeAll (pool : Pool) (candidates : List Candidate) : Pool :=
  candidates.foldl (fun pool candidate => (pool.observe candidate).2) pool

/-- The lead of the first entry over the second, once there are more than two; zero if
the second is ahead. -/
def leadingGap? (pool : Pool) : Option UInt32 :=
  match pool.entries with
  | first :: second :: _ :: _ =>
    some (if second.count ≤ first.count then first.count - second.count else 0)
  | _ => none

/-- The candidates with the numbers of their draws, in the order of the pool. -/
def ranked (pool : Pool) : List Candidate :=
  pool.entries.map fun entry => { entry.candidate with count := entry.count }

/-- There is one count for each program of a pool. -/
@[simp] theorem length_counts (pool : Pool) : pool.counts.length = pool.size := by
  simp [counts, size]

/-- There is one candidate for each program of a pool. -/
@[simp] theorem length_ranked (pool : Pool) : pool.ranked.length = pool.size := by
  simp [ranked, size]

/-- An entry is put in front of its neighbour if it exceeds it, and behind it otherwise. -/
theorem place_cases (before : List PoolEntry) (entry : PoolEntry) (after : List PoolEntry) :
    before = [] ∧ place before entry after = (0, entry :: after) ∨
      ∃ earlier neighbour, before = earlier ++ [neighbour] ∧
        (neighbour.count < entry.count ∧
            place before entry after =
              (earlier.length, earlier ++ entry :: neighbour :: after) ∨
          ¬ neighbour.count < entry.count ∧
            place before entry after = (before.length, before ++ entry :: after)) := by
  unfold place
  split
  · rename_i h
    exact Or.inl ⟨List.reverse_eq_nil_iff.1 h, rfl⟩
  · rename_i neighbour reversed h
    refine Or.inr ⟨reversed.reverse, neighbour, ?_, ?_⟩
    · rw [← List.reverse_reverse before, h, List.reverse_cons]
    · split
      · rename_i hlt
        exact Or.inl ⟨hlt, by rw [List.length_reverse]⟩
      · rename_i hle
        exact Or.inr ⟨hle, rfl⟩

/-- The neighbour decides where an entry is put. -/
theorem place_append_singleton (earlier : List PoolEntry) (neighbour entry : PoolEntry)
    (after : List PoolEntry) :
    place (earlier ++ [neighbour]) entry after =
      if neighbour.count < entry.count then
        (earlier.length, earlier ++ entry :: neighbour :: after)
      else (earlier.length + 1, earlier ++ neighbour :: entry :: after) := by
  rw [place, List.reverse_append, List.reverse_singleton, List.singleton_append]
  simp

/-- Putting an entry in its place keeps all entries. -/
theorem place_perm (before : List PoolEntry) (entry : PoolEntry) (after : List PoolEntry) :
    (place before entry after).2.Perm (before ++ entry :: after) := by
  rcases place_cases before entry after with
    ⟨rfl, hplace⟩ | ⟨earlier, neighbour, rfl, ⟨_, hplace⟩ | ⟨_, hplace⟩⟩
  · rw [hplace]
    exact .refl _
  · rw [hplace, List.append_assoc]
    exact (List.Perm.swap ..).append_left _
  · rw [hplace]

/-- An entry stands at the position that is reported for it. -/
theorem getElem?_place (before : List PoolEntry) (entry : PoolEntry) (after : List PoolEntry) :
    (place before entry after).2[(place before entry after).1]? = some entry := by
  rcases place_cases before entry after with
    ⟨_, hplace⟩ | ⟨earlier, neighbour, _, ⟨_, hplace⟩ | ⟨_, hplace⟩⟩
  · rw [hplace]
    rfl
  · rw [hplace]
    simp
  · rw [hplace]
    simp

/-- Draws may be observed in two parts. -/
theorem observeAll_append (pool : Pool) (candidates others : List Candidate) :
    pool.observeAll (candidates ++ others) = (pool.observeAll candidates).observeAll others :=
  List.foldl_append

/-- The last draw is observed by the pool of the draws before it. -/
theorem observeAll_append_singleton (pool : Pool) (candidates : List Candidate)
    (candidate : Candidate) :
    pool.observeAll (candidates ++ [candidate]) =
      ((pool.observeAll candidates).observe candidate).2 :=
  observeAll_append pool candidates [candidate]

end Pool

end EvidenceSynthesis
