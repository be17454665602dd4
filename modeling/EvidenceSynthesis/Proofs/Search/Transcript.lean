import EvidenceSynthesis.Proofs.Search.PoolCounts
import EvidenceSynthesis.Search.Sampling

/-!
# Runs of a search, by the draws they make

A predictor that starts in a state determines an infinite sequence of draws: each draw
leaves the state in which the next one is made.  A run of a search reads a finite part of
that sequence.  This file describes the run by the sequence alone, without the loop.

`Search.EndsWith` says that a list of draws ends with the draw that decides the search, and
`Search.drawCount` is the length of the shortest such beginning of the sequence, at most
the number of draws allowed.  `sample_eq_transcript` is the description: the run fails with
the first draw within that length that fails, and otherwise it makes exactly these draws
and returns what they leave behind.

The loop carries its results along.  `Search.sampleAfter` is the loop in the state that it
has after some draws, and the three lemmas on it say what one more draw does; the runs are
inductions on the draws that remain.
-/

namespace EvidenceSynthesis

/-! ### Kinds of draws -/

namespace Draw

/-- The candidate that a draw brings. -/
def candidate? : Draw → Option Candidate
  | sampled tree calls => some (.ofDraw tree calls)
  | _ => none

@[simp] theorem candidate?_sampled (tree : Tree) (calls : List String) :
    (sampled tree calls).candidate? = some (.ofDraw tree calls) := rfl

@[simp] theorem candidate?_inconsistent (reason : String) :
    (inconsistent reason).candidate? = none := rfl

/-- Whether a draw brings a program. -/
def isSampled (draw : Draw) : Bool :=
  draw.candidate?.isSome

/-- Whether a draw is rejected. -/
def isInconsistent : Draw → Bool
  | inconsistent _ => true
  | _ => false

@[simp] theorem isInconsistent_sampled (tree : Tree) (calls : List String) :
    (sampled tree calls).isInconsistent = false := rfl

@[simp] theorem isInconsistent_inconsistent (reason : String) :
    (inconsistent reason).isInconsistent = true := rfl

/-- What a draw ends a run with, if it fails. -/
def interruption? : Draw → Option Interruption
  | failed error => some (.failed error)
  | crashed => some .crashed
  | _ => none

end Draw

/-- Draws of which none failed brought a program or were rejected. -/
theorem Draw.length_candidates_add_countP {draws : List Draw}
    (h : ∀ draw ∈ draws, draw.interruption? = none) :
    (draws.filterMap Draw.candidate?).length + draws.countP Draw.isInconsistent =
      draws.length := by
  induction draws with
  | nil => rfl
  | cons draw draws ih =>
    have hrest := ih fun other hother => h other (List.mem_cons_of_mem _ hother)
    have hdraw := h draw List.mem_cons_self
    cases draw with
    | sampled tree calls =>
      simp only [List.filterMap_cons, candidate?_sampled, List.length_cons, List.countP_cons,
        isInconsistent_sampled, Bool.false_eq_true, if_false]
      omega
    | inconsistent reason =>
      simp only [List.filterMap_cons, candidate?_inconsistent, List.length_cons, List.countP_cons,
        isInconsistent_inconsistent, if_true]
      omega
    | failed error => simp [Draw.interruption?] at hdraw
    | crashed => simp [Draw.interruption?] at hdraw

/-! ### The draws of a session -/

namespace Predictor

variable {σ : Type} (predictor : Predictor σ) (evidence : Evidence) (state : σ)

/-- The state after a number of draws. -/
def stateAfter : Nat → σ
  | 0 => state
  | n + 1 => (predictor.draw evidence (stateAfter n)).2

/-- What the draw after `n` others comes to. -/
def outcome (n : Nat) : Draw :=
  (predictor.draw evidence (predictor.stateAfter evidence state n)).1

/-- The first draws, in order. -/
def transcript : Nat → List Draw
  | 0 => []
  | n + 1 => transcript n ++ [predictor.outcome evidence state n]

theorem draw_stateAfter (n : Nat) :
    predictor.draw evidence (predictor.stateAfter evidence state n) =
      (predictor.outcome evidence state n, predictor.stateAfter evidence state (n + 1)) := rfl

@[simp] theorem length_transcript (n : Nat) :
    (predictor.transcript evidence state n).length = n := by
  induction n with
  | zero => rfl
  | succ n ih => rw [transcript, List.length_append, ih, List.length_singleton]

theorem length_candidates_le (n : Nat) :
    ((predictor.transcript evidence state n).filterMap Draw.candidate?).length ≤ n := by
  have hle := List.length_filterMap_le Draw.candidate? (predictor.transcript evidence state n)
  rwa [length_transcript] at hle

/-- The draws of a transcript are the outcomes so far. -/
theorem mem_transcript_iff {n : Nat} {draw : Draw} :
    draw ∈ predictor.transcript evidence state n ↔
      ∃ i < n, predictor.outcome evidence state i = draw := by
  induction n with
  | zero => simp [transcript]
  | succ n ih =>
    rw [transcript, List.mem_append, ih, List.mem_singleton]
    constructor
    · rintro (⟨i, hi, rfl⟩ | rfl)
      · exact ⟨i, Nat.lt_succ_of_lt hi, rfl⟩
      · exact ⟨n, Nat.lt_succ_self n, rfl⟩
    · rintro ⟨i, hi, rfl⟩
      rcases Nat.lt_succ_iff_lt_or_eq.1 hi with hlt | rfl
      · exact Or.inl ⟨i, hlt, rfl⟩
      · exact Or.inr rfl

theorem transcript_eq_map (n : Nat) :
    predictor.transcript evidence state n =
      (List.range n).map (predictor.outcome evidence state) := by
  induction n with
  | zero => rfl
  | succ n ih => rw [transcript, ih, List.range_succ, List.map_append, List.map_singleton]

/-- The session that comes to given draws, one after another, and then breaks off. -/
def ofDraws (draws : List Draw) : Predictor Nat where
  draw _ n := (draws.getD n .crashed, n + 1)

/-- The predictor that keeps a record of the draws that are made. -/
def recording : Predictor (List Draw × σ) where
  draw evidence recorded :=
    let (draw, next) := predictor.draw evidence recorded.2
    (draw, (recorded.1 ++ [draw], next))

/-- A recording predictor carries the transcript beside the state. -/
theorem recording_stateAfter (n : Nat) :
    predictor.recording.stateAfter evidence ([], state) n =
      (predictor.transcript evidence state n, predictor.stateAfter evidence state n) := by
  induction n with
  | zero => rfl
  | succ n ih =>
    rw [stateAfter, ih]
    rfl

theorem recording_outcome (n : Nat) :
    predictor.recording.outcome evidence ([], state) n = predictor.outcome evidence state n := by
  rw [outcome, recording_stateAfter]
  rfl

theorem recording_transcript (n : Nat) :
    predictor.recording.transcript evidence ([], state) n =
      predictor.transcript evidence state n := by
  induction n with
  | zero => rfl
  | succ n ih => rw [transcript, transcript, ih, recording_outcome]

end Predictor

/-! ### Pools of draws -/

namespace Pool

/-- The pool that is left by the programs among draws. -/
def ofDraws (draws : List Draw) : Pool :=
  empty.observeAll (draws.filterMap Draw.candidate?)

/-- A program that is drawn last is observed last. -/
theorem ofDraws_append_sampled (draws : List Draw) (tree : Tree) (calls : List String) :
    ofDraws (draws ++ [.sampled tree calls]) =
      ((ofDraws draws).observe (.ofDraw tree calls)).2 := by
  rw [ofDraws, List.filterMap_append, ofDraws]
  exact observeAll_append_singleton empty _ _

/-- A draw without a program leaves the pool. -/
theorem ofDraws_append_of_none (draws : List Draw) {draw : Draw} (h : draw.candidate? = none) :
    ofDraws (draws ++ [draw]) = ofDraws draws := by
  simp [ofDraws, List.filterMap_append, h]

/-- Whether there are more than two entries and the first exceeds the second by `gap`, as
integers. -/
def LeadsBy (pool : Pool) (gap : Nat) : Prop :=
  match pool.entries with
  | first :: second :: _ :: _ => (gap : Int) ≤ (first.count.toNat : Int) - second.count.toNat
  | _ => False

instance (pool : Pool) (gap : Nat) : Decidable (pool.LeadsBy gap) :=
  match pool with
  | ⟨[]⟩ => inferInstanceAs (Decidable False)
  | ⟨[_]⟩ => inferInstanceAs (Decidable False)
  | ⟨[_, _]⟩ => inferInstanceAs (Decidable False)
  | ⟨_ :: _ :: _ :: _⟩ => inferInstanceAs (Decidable ((_ : Int) ≤ _))

/-- A lead is that of the first of at least three programs over the second. -/
theorem leadsBy_iff {pool : Pool} {gap : Nat} :
    pool.LeadsBy gap ↔ ∃ first second third rest,
      pool.entries = first :: second :: third :: rest ∧
        (gap : Int) ≤ (first.count.toNat : Int) - second.count.toNat := by
  constructor
  · intro h
    unfold LeadsBy at h
    split at h
    · exact ⟨_, _, _, _, ‹_›, h⟩
    · exact h.elim
  · rintro ⟨first, second, third, rest, hentries, h⟩
    unfold LeadsBy
    rw [hentries]
    exact h

end Pool

namespace Search

open Pool (ofDraws)

variable {σ : Type}

theorem gapThreshold_pos (search : Search) : 0 < search.limits.gapThreshold.toNat := by
  have hne : search.limits.gapThreshold ≠ 0 := search.valid.2.1
  exact Nat.pos_of_ne_zero fun h => hne (UInt32.toNat_inj.1 h)

theorem maxDraws_pos (search : Search) : 0 < search.limits.maxDraws.toNat := by
  have hne : search.limits.maxDraws ≠ 0 := search.valid.1
  exact Nat.pos_of_ne_zero fun h => hne (UInt64.toNat_inj.1 h)

/-- The test of a search is the lead as integers: where the second entry is ahead, the lead
that the test sees is zero, and no gap is. -/
theorem isDecided_iff (search : Search) (pool : Pool) :
    search.isDecided pool = true ↔ pool.LeadsBy search.limits.gapThreshold.toNat := by
  have hgap := search.gapThreshold_pos
  rcases pool with ⟨_ | ⟨first, _ | ⟨second, _ | ⟨third, rest⟩⟩⟩⟩
  · exact iff_of_false (by simp [isDecided, Pool.leadingGap?]) id
  · exact iff_of_false (by simp [isDecided, Pool.leadingGap?]) id
  · exact iff_of_false (by simp [isDecided, Pool.leadingGap?]) id
  · simp only [isDecided, Pool.leadingGap?, Pool.LeadsBy, Option.any_some, decide_eq_true_iff]
    split
    · rename_i hle
      rw [UInt32.le_iff_toNat_le, UInt32.toNat_sub_of_le _ _ hle]
      have hcounts := UInt32.le_iff_toNat_le.1 hle
      omega
    · rename_i hlt
      rw [UInt32.le_iff_toNat_le] at hlt ⊢
      rw [UInt32.toNat_zero]
      omega

/-! ### The end of a run -/

/-- Whether draws end with the one that decides the search. -/
def EndsWith (search : Search) (draws : List Draw) : Prop :=
  draws.getLast?.any Draw.isSampled = true ∧
    (ofDraws draws).LeadsBy search.limits.gapThreshold.toNat

instance (search : Search) (draws : List Draw) : Decidable (search.EndsWith draws) :=
  inferInstanceAs (Decidable (_ ∧ _))

/-- How often a search draws if no draw fails: the least number of draws of which the last
one decides it, or else the number of draws allowed. -/
def drawCount (search : Search) (predictor : Predictor σ) (evidence : Evidence) (state : σ) :
    Nat :=
  if h : ∃ n ≤ search.limits.maxDraws.toNat,
      search.EndsWith (predictor.transcript evidence state n) then
    Nat.find h
  else
    search.limits.maxDraws.toNat

section

variable (search : Search) (predictor : Predictor σ) (evidence : Evidence) (state : σ)

theorem drawCount_le :
    search.drawCount predictor evidence state ≤ search.limits.maxDraws.toNat := by
  unfold drawCount
  split
  · rename_i h
    exact (Nat.find_spec h).1
  · exact Nat.le_refl _

/-- No fewer draws decide the search. -/
theorem not_endsWith_of_lt_drawCount {n : Nat}
    (h : n < search.drawCount predictor evidence state) :
    ¬ search.EndsWith (predictor.transcript evidence state n) := by
  intro hends
  have hle : n ≤ search.limits.maxDraws.toNat :=
    Nat.le_of_lt (Nat.lt_of_lt_of_le h (search.drawCount_le predictor evidence state))
  have hexists : ∃ n ≤ search.limits.maxDraws.toNat,
      search.EndsWith (predictor.transcript evidence state n) := ⟨n, hle, hends⟩
  rw [drawCount, dif_pos hexists] at h
  exact Nat.find_min hexists h ⟨hle, hends⟩

/-- Fewer draws than allowed are made only if they decide the search. -/
theorem endsWith_drawCount
    (h : search.drawCount predictor evidence state < search.limits.maxDraws.toNat) :
    search.EndsWith
      (predictor.transcript evidence state (search.drawCount predictor evidence state)) := by
  unfold drawCount at h ⊢
  split
  · rename_i hexists
    exact (Nat.find_spec hexists).2
  · rename_i hnone
    rw [dif_neg hnone] at h
    exact absurd h (Nat.lt_irrefl _)

/-- Draws after which the pool leads have a beginning that decides the search: a draw without
a program leaves the pool as it is. -/
theorem exists_endsWith_of_leadsBy {n : Nat}
    (h : (ofDraws (predictor.transcript evidence state n)).LeadsBy
      search.limits.gapThreshold.toNat) :
    ∃ m ≤ n, search.EndsWith (predictor.transcript evidence state m) := by
  induction n with
  | zero => exact h.elim
  | succ n ih =>
    by_cases hsampled : (predictor.outcome evidence state n).isSampled = true
    · refine ⟨n + 1, Nat.le_refl _, ?_, h⟩
      rw [Predictor.transcript, List.getLast?_concat, Option.any_some]
      exact hsampled
    · rw [Draw.isSampled, Option.not_isSome_iff_eq_none] at hsampled
      rw [Predictor.transcript, Pool.ofDraws_append_of_none _ hsampled] at h
      obtain ⟨m, hm, hends⟩ := ih h
      exact ⟨m, Nat.le_succ_of_le hm, hends⟩

/-- The draws of a search end with the one that decides it if their pool leads. -/
theorem endsWith_drawCount_iff :
    search.EndsWith
        (predictor.transcript evidence state (search.drawCount predictor evidence state)) ↔
      (ofDraws (predictor.transcript evidence state
        (search.drawCount predictor evidence state))).LeadsBy
          search.limits.gapThreshold.toNat := by
  refine ⟨And.right, fun hleads => ?_⟩
  obtain ⟨m, hm, hends⟩ := search.exists_endsWith_of_leadsBy predictor evidence state hleads
  rcases Nat.lt_or_eq_of_le hm with hlt | rfl
  · exact absurd hends (search.not_endsWith_of_lt_drawCount predictor evidence state hlt)
  · exact hends

/-! ### The loop in terms of the draws -/

/-- The loop of a run that has made `n` draws, none of which failed or decided the search. -/
def sampleAfter (n remaining : Nat) : Except Interruption Run × σ :=
  search.sampleFrom predictor evidence (ofDraws (predictor.transcript evidence state n)) n
    ((predictor.transcript evidence state n).countP Draw.isInconsistent) remaining
    (predictor.stateAfter evidence state n)

/-- What a run leaves behind after `n` draws. -/
def runOf (n : Nat) : Run :=
  let draws := predictor.transcript evidence state n
  ⟨ofDraws draws, n, draws.countP Draw.isInconsistent,
    if search.EndsWith draws then .confidenceGap else .budgetExhausted⟩

theorem sample_eq_sampleAfter :
    search.sample predictor evidence state =
      search.sampleAfter predictor evidence state 0 search.limits.maxDraws.toNat := rfl

/-- The loop stops at a draw that fails. -/
theorem sampleAfter_of_interruption {n remaining : Nat} {interruption : Interruption}
    (h : (predictor.outcome evidence state n).interruption? = some interruption) :
    search.sampleAfter predictor evidence state n (remaining + 1) =
      (.error interruption, predictor.stateAfter evidence state (n + 1)) := by
  rw [sampleAfter, sampleFrom, predictor.draw_stateAfter]
  cases houtcome : predictor.outcome evidence state n with
  | sampled tree calls => simp [houtcome, Draw.interruption?] at h
  | inconsistent reason => simp [houtcome, Draw.interruption?] at h
  | failed error =>
    rw [houtcome, Draw.interruption?, Option.some.injEq] at h
    rw [← h]
  | crashed =>
    rw [houtcome, Draw.interruption?, Option.some.injEq] at h
    rw [← h]

/-- A search ends with a draw that brings a program and decides the pool. -/
theorem endsWith_succ_iff (n : Nat) :
    search.EndsWith (predictor.transcript evidence state (n + 1)) ↔
      (predictor.outcome evidence state n).isSampled = true ∧
        search.isDecided (ofDraws (predictor.transcript evidence state (n + 1))) = true := by
  rw [isDecided_iff, EndsWith, Predictor.transcript, List.getLast?_concat, Option.any_some]

/-- The loop stops at the draw that decides the search. -/
theorem sampleAfter_of_endsWith {n remaining : Nat}
    (h : search.EndsWith (predictor.transcript evidence state (n + 1))) :
    search.sampleAfter predictor evidence state n (remaining + 1) =
      (.ok (search.runOf predictor evidence state (n + 1)),
        predictor.stateAfter evidence state (n + 1)) := by
  obtain ⟨hsampled, hdecided⟩ := (search.endsWith_succ_iff predictor evidence state n).1 h
  have hrun : search.runOf predictor evidence state (n + 1) =
      ⟨ofDraws (predictor.transcript evidence state (n + 1)), n + 1,
        (predictor.transcript evidence state (n + 1)).countP Draw.isInconsistent,
        .confidenceGap⟩ := by
    rw [runOf, if_pos h]
  rw [hrun, sampleAfter, sampleFrom, predictor.draw_stateAfter]
  rw [Predictor.transcript] at hdecided ⊢
  cases houtcome : predictor.outcome evidence state n with
  | sampled tree calls =>
    rw [houtcome, Pool.ofDraws_append_sampled] at hdecided
    simp only [Pool.ofDraws_append_sampled, hdecided, if_true, List.countP_append]
    rfl
  | inconsistent reason => simp [houtcome, Draw.isSampled, Draw.candidate?] at hsampled
  | failed error => simp [houtcome, Draw.isSampled, Draw.candidate?] at hsampled
  | crashed => simp [houtcome, Draw.isSampled, Draw.candidate?] at hsampled

/-- The loop goes on after any other draw. -/
theorem sampleAfter_of_not_endsWith {n remaining : Nat}
    (hnone : (predictor.outcome evidence state n).interruption? = none)
    (h : ¬ search.EndsWith (predictor.transcript evidence state (n + 1))) :
    search.sampleAfter predictor evidence state n (remaining + 1) =
      search.sampleAfter predictor evidence state (n + 1) remaining := by
  rw [endsWith_succ_iff] at h
  rw [sampleAfter, sampleFrom, predictor.draw_stateAfter, sampleAfter]
  rw [Predictor.transcript] at h ⊢
  cases houtcome : predictor.outcome evidence state n with
  | sampled tree calls =>
    rw [houtcome, Pool.ofDraws_append_sampled] at h
    have hundecided : ¬ search.isDecided
        ((ofDraws (predictor.transcript evidence state n)).observe (.ofDraw tree calls)).2 = true :=
      fun hdecided => h ⟨rfl, hdecided⟩
    simp only [Pool.ofDraws_append_sampled, if_neg hundecided, List.countP_append]
    rfl
  | inconsistent reason =>
    have hpool : ofDraws (predictor.transcript evidence state n ++ [.inconsistent reason]) =
        ofDraws (predictor.transcript evidence state n) :=
      Pool.ofDraws_append_of_none _ rfl
    simp [hpool, List.countP_append, Draw.isInconsistent]
  | failed error => simp [houtcome, Draw.interruption?] at hnone
  | crashed => simp [houtcome, Draw.interruption?] at hnone

/-! ### Runs -/

/-- A run ends with its first failure. -/
theorem sampleAfter_of_first_interruption {k : Nat} {interruption : Interruption}
    (hk : k < search.drawCount predictor evidence state)
    (hbefore : ∀ i < k, (predictor.outcome evidence state i).interruption? = none)
    (h : (predictor.outcome evidence state k).interruption? = some interruption)
    {n remaining : Nat} (hn : n ≤ k) (hremaining : k < n + remaining) :
    search.sampleAfter predictor evidence state n remaining =
      (.error interruption, predictor.stateAfter evidence state (k + 1)) := by
  induction remaining generalizing n with
  | zero => omega
  | succ remaining ih =>
    rcases Nat.lt_or_eq_of_le hn with hlt | rfl
    · have hgoes := search.not_endsWith_of_lt_drawCount predictor evidence state
        (Nat.lt_of_le_of_lt hlt hk)
      rw [search.sampleAfter_of_not_endsWith predictor evidence state (hbefore n hlt) hgoes]
      exact ih hlt (by omega)
    · exact search.sampleAfter_of_interruption predictor evidence state h

/-- A run without a failure makes its number of draws. -/
theorem sampleAfter_of_no_interruption
    (hnone : ∀ i < search.drawCount predictor evidence state,
      (predictor.outcome evidence state i).interruption? = none)
    {n remaining : Nat} (hn : n < search.drawCount predictor evidence state)
    (hremaining : n + remaining = search.limits.maxDraws.toNat) :
    search.sampleAfter predictor evidence state n remaining =
      (.ok (search.runOf predictor evidence state (search.drawCount predictor evidence state)),
        predictor.stateAfter evidence state (search.drawCount predictor evidence state)) := by
  have hle := search.drawCount_le predictor evidence state
  induction remaining generalizing n with
  | zero => omega
  | succ remaining ih =>
    by_cases hends : search.EndsWith (predictor.transcript evidence state (n + 1))
    · have hcount : search.drawCount predictor evidence state = n + 1 := by
        refine Nat.le_antisymm (Nat.le_of_not_lt fun hlt => ?_) hn
        exact search.not_endsWith_of_lt_drawCount predictor evidence state hlt hends
      rw [search.sampleAfter_of_endsWith predictor evidence state hends, hcount]
    · rw [search.sampleAfter_of_not_endsWith predictor evidence state (hnone n hn) hends]
      rcases Nat.lt_or_eq_of_le hn with hlt | heq
      · exact ih hlt (by omega)
      · have hmax : n + 1 = search.limits.maxDraws.toNat := by
          refine Nat.le_antisymm (by omega) (Nat.le_of_not_lt fun hlt => hends ?_)
          have hlast := search.endsWith_drawCount predictor evidence state (by omega)
          rwa [← heq] at hlast
        obtain rfl : remaining = 0 := by omega
        rw [← heq, runOf, if_neg hends, sampleAfter, sampleFrom]

theorem drawCount_pos : 0 < search.drawCount predictor evidence state := by
  have hmax := search.maxDraws_pos
  refine Nat.pos_of_ne_zero fun hzero => ?_
  have hends := search.endsWith_drawCount predictor evidence state (hzero ▸ hmax)
  rw [hzero] at hends
  exact absurd hends.1 (by simp [Predictor.transcript])

/-- A search ends with the first draw that interrupts it. -/
theorem sample_of_first_interruption {k : Nat} {interruption : Interruption}
    (hk : k < search.drawCount predictor evidence state)
    (hbefore : ∀ i < k, (predictor.outcome evidence state i).interruption? = none)
    (h : (predictor.outcome evidence state k).interruption? = some interruption) :
    search.sample predictor evidence state =
      (.error interruption, predictor.stateAfter evidence state (k + 1)) := by
  have hle := search.drawCount_le predictor evidence state
  rw [sample_eq_sampleAfter]
  exact search.sampleAfter_of_first_interruption predictor evidence state hk hbefore h
    (Nat.zero_le k) (by omega)

/-- A search that nothing interrupts makes all of its draws. -/
theorem sample_of_no_interruption
    (hnone : ∀ i < search.drawCount predictor evidence state,
      (predictor.outcome evidence state i).interruption? = none) :
    search.sample predictor evidence state =
      (.ok (search.runOf predictor evidence state (search.drawCount predictor evidence state)),
        predictor.stateAfter evidence state (search.drawCount predictor evidence state)) := by
  rw [sample_eq_sampleAfter]
  exact search.sampleAfter_of_no_interruption predictor evidence state hnone
    (search.drawCount_pos predictor evidence state) (Nat.zero_add _)

/-- A search that returns a run made its number of draws, and none of them failed. -/
theorem eq_runOf_of_sample_eq_ok {run : Run} {final : σ}
    (h : search.sample predictor evidence state = (.ok run, final)) :
    (∀ i < search.drawCount predictor evidence state,
        (predictor.outcome evidence state i).interruption? = none) ∧
      run = search.runOf predictor evidence state (search.drawCount predictor evidence state) := by
  by_cases hfails : ∃ k < search.drawCount predictor evidence state,
      (predictor.outcome evidence state k).interruption? ≠ none
  · have hfirst := Nat.find_spec hfails
    obtain ⟨interruption, hinterruption⟩ := Option.ne_none_iff_exists'.1 hfirst.2
    have hbefore : ∀ i < Nat.find hfails,
        (predictor.outcome evidence state i).interruption? = none := by
      intro i hi
      by_contra hne
      exact Nat.find_min hfails hi ⟨Nat.lt_trans hi hfirst.1, hne⟩
    rw [search.sample_of_first_interruption predictor evidence state hfirst.1 hbefore
      hinterruption] at h
    cases h
  · have hnone : ∀ i < search.drawCount predictor evidence state,
        (predictor.outcome evidence state i).interruption? = none := by
      intro i hi
      by_contra hne
      exact hfails ⟨i, hi, hne⟩
    rw [search.sample_of_no_interruption predictor evidence state hnone] at h
    cases h
    exact ⟨hnone, rfl⟩

/-- What a run leaves behind is determined by the draws, whatever predictor makes them. -/
theorem sample_eq_ok_of_outcome_eq {τ : Type} {other : Predictor τ} {start final : τ} {run : Run}
    (h : ∀ i, predictor.outcome evidence state i = other.outcome evidence start i)
    (hrun : search.sample other evidence start = (.ok run, final)) :
    search.sample predictor evidence state =
      (.ok run, predictor.stateAfter evidence state run.attempts) := by
  have htranscript : ∀ n, predictor.transcript evidence state n =
      other.transcript evidence start n := by
    intro n
    rw [Predictor.transcript_eq_map, Predictor.transcript_eq_map]
    exact List.map_congr_left fun i _ => h i
  have hcount : search.drawCount predictor evidence state =
      search.drawCount other evidence start := by
    simp only [drawCount, htranscript]
  obtain ⟨hothers, rfl⟩ := search.eq_runOf_of_sample_eq_ok other evidence start hrun
  have hnone : ∀ i < search.drawCount predictor evidence state,
      (predictor.outcome evidence state i).interruption? = none := by
    simpa only [hcount, h] using hothers
  rw [search.sample_of_no_interruption predictor evidence state hnone, hcount, runOf, htranscript]
  rfl

/-- The reason that a run gives for its end. -/
theorem stop_runOf_iff (n : Nat) :
    (search.runOf predictor evidence state n).stop = .confidenceGap ↔
      search.EndsWith (predictor.transcript evidence state n) := by
  rw [runOf]
  split
  · rename_i h
    exact iff_of_true rfl h
  · rename_i h
    exact iff_of_false (by simp) h

/-- The counts of a pool and the rejected draws add up to the draws. -/
theorem total_runOf_add_rejected {n : Nat} (hlength : n < Word.bound32)
    (hnone : ∀ i < n, (predictor.outcome evidence state i).interruption? = none) :
    (search.runOf predictor evidence state n).pool.total +
      (search.runOf predictor evidence state n).rejected = n := by
  have hdraws : ∀ draw ∈ predictor.transcript evidence state n, draw.interruption? = none := by
    intro draw hdraw
    obtain ⟨i, hi, rfl⟩ := (predictor.mem_transcript_iff evidence state).1 hdraw
    exact hnone i hi
  have hsplit := Draw.length_candidates_add_countP hdraws
  rw [Predictor.length_transcript] at hsplit
  rw [runOf, ofDraws, Pool.total_observeAll (by omega)]
  exact hsplit

/-- The draws that a search makes, in order. -/
def drawsMade : List Draw :=
  (search.sample predictor.recording evidence ([], state)).2.1

theorem drawCount_recording :
    search.drawCount predictor.recording evidence ([], state) =
      search.drawCount predictor evidence state := by
  simp only [drawCount, Predictor.recording_transcript]

/-- A run that fails makes the draws up to the first failure. -/
theorem drawsMade_of_first_interruption {k : Nat} {interruption : Interruption}
    (hk : k < search.drawCount predictor evidence state)
    (hbefore : ∀ i < k, (predictor.outcome evidence state i).interruption? = none)
    (h : (predictor.outcome evidence state k).interruption? = some interruption) :
    search.drawsMade predictor evidence state = predictor.transcript evidence state (k + 1) := by
  have hrecorded : search.sample predictor.recording evidence ([], state) =
      (.error interruption, predictor.recording.stateAfter evidence ([], state) (k + 1)) := by
    refine search.sample_of_first_interruption predictor.recording evidence ([], state) ?_ ?_ ?_
    · rwa [drawCount_recording]
    · simpa only [Predictor.recording_outcome] using hbefore
    · rwa [Predictor.recording_outcome]
  rw [drawsMade, hrecorded, Predictor.recording_stateAfter]

/-- A run without a failure makes its number of draws. -/
theorem drawsMade_of_no_interruption
    (hnone : ∀ i < search.drawCount predictor evidence state,
      (predictor.outcome evidence state i).interruption? = none) :
    search.drawsMade predictor evidence state =
      predictor.transcript evidence state (search.drawCount predictor evidence state) := by
  have hrecorded := search.sample_of_no_interruption predictor.recording evidence ([], state)
    (by simpa only [drawCount_recording, Predictor.recording_outcome] using hnone)
  rw [drawsMade, hrecorded, Predictor.recording_stateAfter, drawCount_recording]

/-- A search that returns a run leaves the pool of the draws it made, of which there are no
more than it allows. -/
theorem pool_eq_of_sample_eq_ok {run : Run} {final : σ}
    (h : search.sample predictor evidence state = (.ok run, final)) :
    run.pool = ofDraws (search.drawsMade predictor evidence state) ∧
      (search.drawsMade predictor evidence state).length ≤ search.limits.maxDraws.toNat := by
  obtain ⟨hnone, hrun⟩ := search.eq_runOf_of_sample_eq_ok predictor evidence state h
  rw [search.drawsMade_of_no_interruption predictor evidence state hnone,
    Predictor.length_transcript, hrun]
  exact ⟨rfl, search.drawCount_le predictor evidence state⟩

end

/-- What a search returns, by the sequence of draws that its predictor would make.  Let `n`
be the least number of draws of which the last one decides the search, or else the number
of draws allowed.  If one of the first `n` draws fails, the search makes the draws up to
the first that fails and returns that failure.  Otherwise it makes `n` draws and returns
their number, the number of those that were rejected, the pool of the others, and whether
the last draw decided the search, that is, whether the pool leads in the end; and as long
as there are fewer than `2 ^ 32` draws, the counts of the pool and the rejected draws add up
to all of them. -/
theorem sample_eq_transcript (search : Search) (predictor : Predictor σ)
    (evidence : Evidence) (state : σ) :
    let n := search.drawCount predictor evidence state
    let draws := predictor.transcript evidence state
    (∀ k interruption, k < n →
      (∀ i < k, (predictor.outcome evidence state i).interruption? = none) →
      (predictor.outcome evidence state k).interruption? = some interruption →
      search.sample predictor evidence state =
          (.error interruption, predictor.stateAfter evidence state (k + 1)) ∧
        search.drawsMade predictor evidence state = draws (k + 1)) ∧
    ((∀ i < n, (predictor.outcome evidence state i).interruption? = none) →
      search.drawsMade predictor evidence state = draws n ∧
      ∃ run, search.sample predictor evidence state =
          (.ok run, predictor.stateAfter evidence state n) ∧
        run.attempts = n ∧
        run.rejected = (draws n).countP Draw.isInconsistent ∧
        run.pool = ofDraws (draws n) ∧
        (run.stop = .confidenceGap ↔ search.EndsWith (draws n)) ∧
        (run.stop = .confidenceGap ↔ run.pool.LeadsBy search.limits.gapThreshold.toNat) ∧
        (n < Word.bound32 → run.pool.total + run.rejected = run.attempts)) := by
  intro n draws
  constructor
  · intro k interruption hk hbefore h
    exact ⟨search.sample_of_first_interruption predictor evidence state hk hbefore h,
      search.drawsMade_of_first_interruption predictor evidence state hk hbefore h⟩
  · intro hnone
    refine ⟨search.drawsMade_of_no_interruption predictor evidence state hnone,
      search.runOf predictor evidence state n,
      search.sample_of_no_interruption predictor evidence state hnone, rfl, rfl, rfl,
      search.stop_runOf_iff predictor evidence state n, ?_, ?_⟩
    · rw [stop_runOf_iff]
      exact search.endsWith_drawCount_iff predictor evidence state
    · intro hlength
      exact search.total_runOf_add_rejected predictor evidence state hlength hnone

end Search

end EvidenceSynthesis
