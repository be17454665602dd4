import EvidenceSynthesis.Proofs.Search.Transcript

/-!
# How long counts are true

A count is a word of 32 bits, and a draw adds one to it whatever it is.  What keeps a count true is
therefore the number of draws alone: the limits of a search bound it by a word of 64 bits, and the
lead that ends a search early is not seen before a pool has three entries.

A search is looked at in the middle of its run by breaking it off (`Search.sampleWithin`).  At every
step a count is the number of draws of its tree modulo `2 ^ 32` (`Search.toNat_count_sampleWithin`).
Hence all counts of all runs of a search are true exactly if it allows fewer than `2 ^ 32` draws
(`Search.counts_true_iff`); a predictor that always draws the same program shows that no fewer will
do (`Predictor.constant`).
-/

namespace EvidenceSynthesis

/-! ### Draws of a tree -/

/-- How many of the first `n` draws brought the tree of a candidate. -/
def Predictor.drawsOf {σ : Type} (predictor : Predictor σ) (evidence : Evidence) (state : σ)
    (candidate : Candidate) (n : Nat) : Nat :=
  ((predictor.transcript evidence state n).filterMap Draw.candidate?).countP candidate.same

theorem Predictor.drawsOf_le {σ : Type} (predictor : Predictor σ) (evidence : Evidence) (state : σ)
    (candidate : Candidate) (n : Nat) : predictor.drawsOf evidence state candidate n ≤ n :=
  Nat.le_trans List.countP_le_length (predictor.length_candidates_le evidence state n)

namespace Search

open Pool (ofDraws)

variable {σ : Type} (search : Search) (predictor : Predictor σ) (evidence : Evidence) (state : σ)

/-! ### Runs that are broken off -/

/-- The run of a search that is broken off after `n` draws, if it does not end before. -/
def sampleWithin (n : Nat) : Except Interruption Run × σ :=
  search.sampleFrom predictor evidence .empty 0 0 n state

theorem sample_eq_sampleWithin :
    search.sample predictor evidence state =
      search.sampleWithin predictor evidence state search.limits.maxDraws.toNat := rfl

theorem sampleWithin_eq_sampleAfter (n : Nat) :
    search.sampleWithin predictor evidence state n =
      search.sampleAfter predictor evidence state 0 n := rfl

/-- A run that is broken off leaves the pool of the draws that it has made. -/
theorem pool_eq_of_sampleAfter_eq_ok {m remaining : Nat} {run : Run} {final : σ}
    (h : search.sampleAfter predictor evidence state m remaining = (.ok run, final)) :
    run.attempts ≤ m + remaining ∧
      run.pool = ofDraws (predictor.transcript evidence state run.attempts) := by
  induction remaining generalizing m with
  | zero =>
    cases h
    exact ⟨Nat.le_refl m, rfl⟩
  | succ remaining ih =>
    cases hnone : (predictor.outcome evidence state m).interruption? with
    | some interruption =>
      rw [search.sampleAfter_of_interruption predictor evidence state hnone] at h
      cases h
    | none =>
      by_cases hends : search.EndsWith (predictor.transcript evidence state (m + 1))
      · rw [search.sampleAfter_of_endsWith predictor evidence state hends] at h
        cases h
        exact ⟨Nat.add_le_add_left (Nat.le_add_left 1 remaining) m, rfl⟩
      · rw [search.sampleAfter_of_not_endsWith predictor evidence state hnone hends] at h
        obtain ⟨hattempts, hpool⟩ := ih h
        exact ⟨by omega, hpool⟩

/-- A run within so many draws pools what its attempts drew. -/
theorem pool_eq_of_sampleWithin_eq_ok {n : Nat} {run : Run} {final : σ}
    (h : search.sampleWithin predictor evidence state n = (.ok run, final)) :
    run.attempts ≤ n ∧
      run.pool = ofDraws (predictor.transcript evidence state run.attempts) := by
  rw [sampleWithin_eq_sampleAfter] at h
  have hleft := search.pool_eq_of_sampleAfter_eq_ok predictor evidence state h
  rwa [Nat.zero_add] at hleft

/-- A run goes on as long as no draw fails or decides the search. -/
theorem sampleAfter_eq_of_goes_on {m remaining : Nat}
    (hnone : ∀ i, (predictor.outcome evidence state i).interruption? = none)
    (h : ∀ i, ¬ search.EndsWith (predictor.transcript evidence state i)) :
    search.sampleAfter predictor evidence state m remaining =
      search.sampleAfter predictor evidence state (m + remaining) 0 := by
  induction remaining generalizing m with
  | zero => rfl
  | succ remaining ih =>
    rw [search.sampleAfter_of_not_endsWith predictor evidence state (hnone m) (h (m + 1)), ih]
    congr 1
    omega

/-! ### Counts at every step -/

/-- Whether at every step of a run each count is the number of draws of its tree. -/
def CountsTruly : Prop :=
  ∀ n ≤ search.limits.maxDraws.toNat, ∀ run final,
    search.sampleWithin predictor evidence state n = (.ok run, final) →
    ∀ entry ∈ run.pool.entries,
      entry.count.toNat = predictor.drawsOf evidence state entry.candidate run.attempts

variable {search predictor evidence state}

/-- At every step a count is the number of draws of its tree, up to whole rounds of the words. -/
theorem toNat_count_sampleWithin {n : Nat} {run : Run} {final : σ}
    (h : search.sampleWithin predictor evidence state n = (.ok run, final)) {entry : PoolEntry}
    (hentry : entry ∈ run.pool.entries) :
    entry.count.toNat =
      predictor.drawsOf evidence state entry.candidate run.attempts % Word.bound32 := by
  rw [(search.pool_eq_of_sampleWithin_eq_ok predictor evidence state h).2] at hentry
  rw [(Pool.reflects_observeAll _).count entry hentry, UInt32.toNat_ofNat']
  rfl

/-- A run counts truly if no tree is drawn more often than there are words. -/
theorem countsTruly_iff :
    search.CountsTruly predictor evidence state ↔
      ∀ n ≤ search.limits.maxDraws.toNat, ∀ run final,
        search.sampleWithin predictor evidence state n = (.ok run, final) →
        ∀ entry ∈ run.pool.entries,
          predictor.drawsOf evidence state entry.candidate run.attempts < Word.bound32 := by
  constructor
  · intro h n hn run final hrun entry hentry
    rw [← h n hn run final hrun entry hentry]
    exact entry.count.toNat_lt
  · intro h n hn run final hrun entry hentry
    rw [toNat_count_sampleWithin hrun hentry]
    exact Nat.mod_eq_of_lt (h n hn run final hrun entry hentry)

/-- A search that allows fewer draws than there are words counts truly. -/
theorem countsTruly_of_lt (h : search.limits.maxDraws.toNat < Word.bound32) :
    search.CountsTruly predictor evidence state := by
  refine countsTruly_iff.2 fun n hn run final hrun entry _ => ?_
  calc predictor.drawsOf evidence state entry.candidate run.attempts
      ≤ run.attempts := predictor.drawsOf_le evidence state entry.candidate run.attempts
    _ ≤ n := (search.pool_eq_of_sampleWithin_eq_ok predictor evidence state hrun).1
    _ ≤ search.limits.maxDraws.toNat := hn
    _ < Word.bound32 := h

end Search

/-! ### The same program again and again -/

/-- The predictor that always draws the same program. -/
def Predictor.constant (tree : Tree) (calls : List String) : Predictor Unit where
  draw _ state := (.sampled tree calls, state)

/-- Draws that all come to the same are copies of one draw. -/
theorem Predictor.transcript_eq_replicate {σ : Type} {predictor : Predictor σ}
    {evidence : Evidence} {state : σ} {draw : Draw}
    (h : ∀ i, predictor.outcome evidence state i = draw) (n : Nat) :
    predictor.transcript evidence state n = List.replicate n draw := by
  rw [transcript_eq_map, List.map_congr_left fun i _ => h i, List.map_const', List.length_range]

/-- A candidate that is drawn again and again is the only one of the pool. -/
theorem Pool.observeAll_replicate (candidate : Candidate) (n : Nat) :
    empty.observeAll (List.replicate (n + 1) candidate) =
      ⟨[⟨candidate, UInt32.ofNat (n + 1)⟩]⟩ := by
  induction n with
  | zero => rfl
  | succ n ih =>
    have hobserve : (⟨[⟨candidate, UInt32.ofNat (n + 1)⟩]⟩ : Pool).observe candidate = _ :=
      observe_of_split rfl (List.forall_mem_nil _) candidate.same_refl
    rw [List.replicate_succ', observeAll_append_singleton, ih, hobserve]
    simp [place, UInt32.ofNat_add]

namespace Search

open Pool (ofDraws)

section

variable {σ : Type} (search : Search) {predictor : Predictor σ} {evidence : Evidence} {state : σ}
  {tree : Tree} {calls : List String}
  (h : ∀ i, predictor.outcome evidence state i = .sampled tree calls)

include h

/-- A predictor of one program fills the pool with it, counted in a word. -/
theorem ofDraws_of_constant (n : Nat) :
    ofDraws (predictor.transcript evidence state (n + 1)) =
      ⟨[⟨.ofDraw tree calls, UInt32.ofNat (n + 1)⟩]⟩ := by
  rw [ofDraws, Predictor.transcript_eq_replicate h,
    List.filterMap_replicate_of_some (Draw.candidate?_sampled tree calls),
    Pool.observeAll_replicate]

/-- A predictor of one program draws it every time. -/
theorem drawsOf_of_constant (n : Nat) :
    predictor.drawsOf evidence state (.ofDraw tree calls) n = n := by
  rw [Predictor.drawsOf, Predictor.transcript_eq_replicate h,
    List.filterMap_replicate_of_some (Draw.candidate?_sampled tree calls),
    List.countP_replicate, if_pos (Candidate.same_refl _)]

/-- One entry leads nobody. -/
theorem not_endsWith_of_constant (n : Nat) :
    ¬ search.EndsWith (predictor.transcript evidence state n) := by
  rintro ⟨-, hleads⟩
  cases n with
  | zero => exact hleads
  | succ n =>
    rw [ofDraws_of_constant h] at hleads
    exact hleads

/-- The same program is drawn up to the end. -/
theorem sampleWithin_of_constant (n : Nat) :
    ∃ run, search.sampleWithin predictor evidence state (n + 1) =
        (.ok run, predictor.stateAfter evidence state (n + 1)) ∧
      run.attempts = n + 1 ∧
      run.pool = ⟨[⟨.ofDraw tree calls, UInt32.ofNat (n + 1)⟩]⟩ := by
  have hnone : ∀ i, (predictor.outcome evidence state i).interruption? = none := by
    intro i
    rw [h]
    rfl
  rw [sampleWithin_eq_sampleAfter, sampleAfter_eq_of_goes_on _ _ _ _ hnone
    (search.not_endsWith_of_constant h), Nat.zero_add]
  exact ⟨_, rfl, rfl, ofDraws_of_constant h n⟩

/-- A search that allows as many draws as there are words loses count of a program that is drawn
again and again. -/
theorem not_countsTruly_of_constant (hmax : Word.bound32 ≤ search.limits.maxDraws.toNat) :
    ¬ search.CountsTruly predictor evidence state := by
  intro htruly
  have hpos : Word.bound32 - 1 + 1 = Word.bound32 := rfl
  obtain ⟨run, hrun, hattempts, hpool⟩ := search.sampleWithin_of_constant h (Word.bound32 - 1)
  rw [hpos] at hrun hattempts hpool
  have hdraws := countsTruly_iff.1 htruly _ hmax run _ hrun ⟨.ofDraw tree calls, _⟩
    (by rw [hpool]; exact List.mem_singleton_self _)
  rw [hattempts, drawsOf_of_constant h] at hdraws
  exact absurd hdraws (Nat.lt_irrefl _)

end

/-- When the counts of a search are true.

At every step of every run a count is the number of draws of its tree modulo `2 ^ 32`, whatever the
limits of the search.  A run thus counts truly exactly if no tree is drawn `2 ^ 32` times before it
ends.  All runs of a search do so exactly if the search allows fewer than `2 ^ 32` draws: no early
end keeps a search that allows more of them from losing count. -/
theorem counts_true_iff (search : Search) :
    (∀ {σ : Type} (predictor : Predictor σ) (evidence : Evidence) (state : σ) n run final,
      search.sampleWithin predictor evidence state n = (.ok run, final) →
      ∀ entry ∈ run.pool.entries,
        entry.count.toNat =
          predictor.drawsOf evidence state entry.candidate run.attempts % Word.bound32) ∧
    (∀ {σ : Type} (predictor : Predictor σ) (evidence : Evidence) (state : σ),
      search.CountsTruly predictor evidence state ↔
        ∀ n ≤ search.limits.maxDraws.toNat, ∀ run final,
          search.sampleWithin predictor evidence state n = (.ok run, final) →
          ∀ entry ∈ run.pool.entries,
            predictor.drawsOf evidence state entry.candidate run.attempts < Word.bound32) ∧
    ((∀ {σ : Type} (predictor : Predictor σ) (evidence : Evidence) (state : σ),
        search.CountsTruly predictor evidence state) ↔
      search.limits.maxDraws.toNat < Word.bound32) := by
  refine ⟨fun _ _ _ _ _ _ hrun _ hentry => toNat_count_sampleWithin hrun hentry,
    fun _ _ _ => countsTruly_iff, fun htruly => ?_, fun h _ _ _ _ => countsTruly_of_lt h⟩
  refine Nat.lt_of_not_le fun hle => ?_
  exact search.not_countsTruly_of_constant (fun _ => rfl) hle
    (htruly (.constant (.single "A") []) .empty ())

/-- A search with the usual lead that allows `2 ^ 32` draws, all of one program: it makes all of
them, and the count of the program is zero in the end. -/
theorem counts_not_true :
    let search : Search := ⟨⟨0x100000000, 10, 10⟩, by decide⟩
    let predictor := Predictor.constant ⟨[], by decide, trivial⟩ []
    (∃ run, search.sample predictor .empty () = (.ok run, ()) ∧ run.attempts = Word.bound32 ∧
      run.pool.counts = [0]) ∧
    ¬ search.CountsTruly predictor .empty () := by
  intro search predictor
  have hmax : search.limits.maxDraws.toNat = Word.bound32 - 1 + 1 := rfl
  have hconstant : ∀ i, predictor.outcome .empty () i = .sampled ⟨[], by decide, trivial⟩ [] :=
    fun _ => rfl
  obtain ⟨run, hrun, hattempts, hpool⟩ :=
    search.sampleWithin_of_constant hconstant (Word.bound32 - 1)
  refine ⟨⟨run, ?_, hattempts, ?_⟩,
    search.not_countsTruly_of_constant hconstant (Nat.le_refl _)⟩
  · rw [sample_eq_sampleWithin, hmax]
    exact hrun.trans (congrArg _ (Subsingleton.elim _ _))
  · rw [hpool]
    rfl

end Search

end EvidenceSynthesis
