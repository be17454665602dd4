import EvidenceSynthesis.Proofs.Search.Transcript

/-!
# What a confidence gap says of the other candidates

A search that stops with a confidence gap has compared the first entry of its pool with
the second one.  The pool is not sorted, since an entry moves up by one place at most, so
the second entry need not be the best of the others: `confidenceGap_not_dominant` is a run
of eight draws after which the third entry even exceeds the first.

What does follow is `lead_of_confidenceGap`.  The lead holds over the second entry and over
all entries that are reached from there without a rise of the counts.  In a pool of three
the first entry still exceeds the third, though by less than the gap perhaps; this is the
invariant `Pool.ThirdTrails` of pools of that size.
-/

namespace EvidenceSynthesis

/-! ### A run that ends without a dominant candidate -/

/-- The session that draws trees of single nodes, one after another. -/
def Predictor.ofKinds (kinds : List String) : Predictor Nat :=
  .ofDraws (kinds.map fun kind => .sampled (.single kind) [])

/-- Eight draws of four trees, of which the third and the fourth overtake each other behind
the second. -/
def overtakingDraws : Predictor Nat :=
  .ofKinds ["A", "B", "C", "D", "D", "C", "C", "A"]

namespace Search

/-- The search that stops at a lead of one. -/
def ofUnitGap : Search := ⟨⟨8, 1, 10⟩, by decide⟩

/-- A search may stop with a confidence gap although the first entry of its pool does not
lead every other entry by the gap: here the third one exceeds it. -/
theorem confidenceGap_not_dominant :
    ¬ ∀ (search : Search) (predictor : Predictor Nat) (evidence : Evidence) (state : Nat)
      (run : Run) (final : Nat),
      search.sample predictor evidence state = (.ok run, final) → run.stop = .confidenceGap →
      ∀ first rest, run.pool.entries = first :: rest → ∀ other ∈ rest,
        (search.limits.gapThreshold.toNat : Int) ≤
          (first.count.toNat : Int) - other.count.toNat := by
  intro h
  obtain ⟨first, second, third, fourth, hrun, hfirst, hthird⟩ :
      ∃ first second third fourth : PoolEntry,
        ofUnitGap.sample overtakingDraws .empty 0 =
          (.ok ⟨⟨[first, second, third, fourth]⟩, 8, 0, .confidenceGap⟩, 8) ∧
        first.count = 2 ∧ third.count = 3 :=
    ⟨_, _, _, _, rfl, rfl, rfl⟩
  have hlead := h _ _ _ _ _ _ hrun rfl first _ rfl third (by simp)
  rw [hfirst, hthird] at hlead
  exact absurd hlead (by decide)

end Search

/-! ### Pools of three -/

namespace Pool

/-- How a draw leaves three entries: a third one is new, or one of three counts one more and
stays, or it overtakes the one in front of it. -/
theorem three_entries_of_observe {pool : Pool} {candidate : Candidate}
    {first second third : PoolEntry}
    (h : (pool.observe candidate).2.entries = [first, second, third]) :
    (pool.entries = [first, second] ∧ third.count = 1) ∨
      ∃ a b c, pool.entries = [a, b, c] ∧
        ((first.count = a.count + 1 ∧ second = b ∧ third = c) ∨
          (first = a ∧ second.count = b.count + 1 ∧ third = c ∧ ¬ a.count < b.count + 1) ∨
          (first.count = b.count + 1 ∧ second = a ∧ third = c ∧ a.count < b.count + 1) ∨
          (first = a ∧ second = b ∧ third.count = c.count + 1 ∧ ¬ b.count < c.count + 1) ∨
          (first = a ∧ second.count = c.count + 1 ∧ third = b ∧ b.count < c.count + 1)) := by
  rcases observe_cases pool candidate with
    ⟨_, hobserve⟩ | ⟨before, entry, after, hentries, _, _, hobserve⟩
  · left
    have happend : pool.entries ++ [⟨candidate, 1⟩] = [first, second] ++ [third] := by
      rw [hobserve] at h
      exact h
    obtain ⟨hentries, hthird⟩ := List.append_inj' happend rfl
    refine ⟨hentries, ?_⟩
    rw [← List.singleton_inj.1 hthird]
  · right
    rw [hobserve] at h
    have hlength : before.length + after.length = 2 := by
      have hperm := (place_perm before { entry with count := entry.count + 1 } after).length_eq
      have hthree := congrArg List.length h
      simp only [List.length_append, List.length_cons, List.length_nil] at hperm hthree
      omega
    rcases before with _ | ⟨a, _ | ⟨b, _ | ⟨x, before⟩⟩⟩ <;>
      simp only [List.length_nil, List.length_cons] at hlength
    · obtain ⟨b, c, rfl⟩ := List.length_eq_two.1 ((Nat.zero_add _).symm.trans hlength)
      simp only [place, List.reverse_nil, List.cons.injEq, and_true] at h
      obtain ⟨rfl, rfl, rfl⟩ := h
      exact ⟨entry, b, c, hentries, Or.inl ⟨rfl, rfl, rfl⟩⟩
    · obtain ⟨c, rfl⟩ := List.length_eq_one_iff.1 (show after.length = 1 by omega)
      refine ⟨a, entry, c, hentries, Or.inr ?_⟩
      by_cases hlt : a.count < entry.count + 1
      · simp only [place, List.reverse_cons, List.reverse_nil, List.nil_append, hlt, if_true,
          List.cons.injEq, and_true] at h
        obtain ⟨rfl, rfl, rfl⟩ := h
        exact Or.inr (Or.inl ⟨rfl, rfl, rfl, hlt⟩)
      · simp only [place, List.reverse_cons, List.reverse_nil, List.nil_append, List.cons_append,
          hlt, if_false, List.cons.injEq, and_true] at h
        obtain ⟨rfl, rfl, rfl⟩ := h
        exact Or.inl ⟨rfl, rfl, rfl, hlt⟩
    · obtain rfl := List.length_eq_zero_iff.1 (show after.length = 0 by omega)
      refine ⟨a, b, entry, hentries, Or.inr (Or.inr (Or.inr ?_))⟩
      by_cases hlt : b.count < entry.count + 1
      · simp only [place, List.reverse_cons, List.reverse_nil, List.nil_append, List.cons_append,
          hlt, if_true, List.cons.injEq, and_true] at h
        obtain ⟨rfl, rfl, rfl⟩ := h
        exact Or.inr ⟨rfl, rfl, rfl, hlt⟩
      · simp only [place, List.reverse_cons, List.reverse_nil, List.nil_append, List.cons_append,
          hlt, if_false, List.cons.injEq, and_true] at h
        obtain ⟨rfl, rfl, rfl⟩ := h
        exact Or.inl ⟨rfl, rfl, rfl, hlt⟩
    · omega

/-- In a pool of three the third entry does not exceed both of the others, and it is behind
the first if the second is. -/
def ThirdTrails (pool : Pool) : Prop :=
  ∀ first second third, pool.entries = [first, second, third] →
    (third.count.toNat ≤ first.count.toNat ∨ third.count.toNat ≤ second.count.toNat) ∧
      (second.count.toNat < first.count.toNat → third.count.toNat < first.count.toNat)

theorem thirdTrails_empty : empty.ThirdTrails := by
  intro first second third hentries
  cases hentries

/-- A draw does not let the third entry of three overtake both others. -/
theorem ThirdTrails.observe {pool : Pool} {candidates : List Candidate}
    (hreflects : pool.Reflects candidates) (hlength : candidates.length + 1 < Word.bound32)
    (h : pool.ThirdTrails) (candidate : Candidate) :
    (pool.observe candidate).2.ThirdTrails := by
  intro first second third hnext
  rcases three_entries_of_observe hnext with ⟨hentries, hthird⟩ | ⟨a, b, c, hentries, hcases⟩
  · have hfirst : 1 ≤ first.count.toNat :=
      hreflects.one_le_toNat_count (by omega) (by simp [hentries])
    have hsecond : 1 ≤ second.count.toNat :=
      hreflects.one_le_toNat_count (by omega) (by simp [hentries])
    rw [hthird, UInt32.toNat_one]
    omega
  · have hbefore := h a b c hentries
    have ha : (a.count + 1).toNat = a.count.toNat + 1 :=
      hreflects.toNat_count_add_one hlength (by simp [hentries])
    have hb : (b.count + 1).toNat = b.count.toNat + 1 :=
      hreflects.toNat_count_add_one hlength (by simp [hentries])
    have hc : (c.count + 1).toNat = c.count.toNat + 1 :=
      hreflects.toNat_count_add_one hlength (by simp [hentries])
    simp only [UInt32.lt_iff_toNat_lt, ← UInt32.toNat_inj, ha, hb, hc] at hcases
    rcases hcases with ⟨hfirst, rfl, rfl⟩ | ⟨rfl, hsecond, rfl, hle⟩ | ⟨hfirst, rfl, rfl, hlt⟩ |
      ⟨rfl, rfl, hthird, hle⟩ | ⟨rfl, hsecond, rfl, hlt⟩ <;> omega

/-- Below so many draws the third entry never leads. -/
theorem thirdTrails_observeAll {candidates : List Candidate}
    (hlength : candidates.length < Word.bound32) :
    (empty.observeAll candidates).ThirdTrails := by
  induction candidates using List.reverseRecOn with
  | nil => exact thirdTrails_empty
  | append_singleton candidates candidate ih =>
    rw [List.length_append, List.length_singleton] at hlength
    rw [observeAll_append_singleton]
    exact (ih (by omega)).observe (reflects_observeAll candidates) hlength candidate

end Pool

/-! ### What a confidence gap says -/

namespace Search

/-- A search that stops with a confidence gap has more than two candidates, and the first
leads the second by the gap.  It leads every further one by the gap up to which the counts
do not rise from the second one on.  And in a pool of three, it exceeds both of the others
if fewer than `2 ^ 32` draws were made. -/
theorem lead_of_confidenceGap {σ : Type} (search : Search) (predictor : Predictor σ)
    (evidence : Evidence) (state : σ) {run : Run} {final : σ}
    (hrun : search.sample predictor evidence state = (.ok run, final))
    (hstop : run.stop = .confidenceGap) :
    ∃ first second third rest, run.pool.entries = first :: second :: third :: rest ∧
      (search.limits.gapThreshold.toNat : Int) ≤
        (first.count.toNat : Int) - second.count.toNat ∧
      (∀ stretch entry after,
        second :: third :: rest = stretch ++ entry :: after →
        (stretch ++ [entry]).Pairwise (fun a b => b.count ≤ a.count) →
        (search.limits.gapThreshold.toNat : Int) ≤
          (first.count.toNat : Int) - entry.count.toNat) ∧
      (rest = [] → run.attempts < Word.bound32 →
        second.count < first.count ∧ third.count < first.count) := by
  obtain ⟨_, hof⟩ := search.eq_runOf_of_sample_eq_ok predictor evidence state hrun
  have hends := hstop
  rw [hof, stop_runOf_iff] at hends
  obtain ⟨first, second, third, rest, hentries, hlead⟩ := Pool.leadsBy_iff.1 hends.2
  have hpool : run.pool.entries = first :: second :: third :: rest := by
    rw [hof]
    exact hentries
  have hgap : 0 < search.limits.gapThreshold.toNat := search.gapThreshold_pos
  refine ⟨first, second, third, rest, hpool, hlead, ?_, ?_⟩
  · intro stretch entry after hsplit hfalls
    have hsecond : entry.count ≤ second.count := by
      cases stretch with
      | nil =>
        rw [(List.cons.inj hsplit).1]
        exact UInt32.le_refl _
      | cons head stretch =>
        rw [(List.cons.inj hsplit).1]
        exact (List.pairwise_cons.1 hfalls).1 entry (by simp)
    rw [UInt32.le_iff_toNat_le] at hsecond
    omega
  · rintro rfl hlength
    have hcandidates := Nat.lt_of_le_of_lt
      (predictor.length_candidates_le evidence state run.attempts) hlength
    have htrails := Pool.thirdTrails_observeAll hcandidates first second third (by
      rw [← hpool, hof]
      rfl)
    rw [UInt32.lt_iff_toNat_lt, UInt32.lt_iff_toNat_lt]
    omega

/-- Four draws of three trees, which end with a lead of one over both of the others. -/
theorem lead_of_confidenceGap_three :
    ∃ run, ofUnitGap.sample (.ofKinds ["A", "B", "C", "A"]) .empty 0 = (.ok run, 4) ∧
      run.stop = .confidenceGap ∧ run.attempts < Word.bound32 ∧
      ∃ first second third, run.pool.entries = [first, second, third] ∧
        1 ≤ (first.count.toNat : Int) - second.count.toNat ∧ third.count < first.count := by
  refine ⟨_, rfl, rfl, by decide, ?_⟩
  obtain ⟨first, second, third, rest, hentries, hlead, _, hthree⟩ :=
    lead_of_confidenceGap ofUnitGap (.ofKinds ["A", "B", "C", "A"]) .empty 0 rfl rfl
  obtain rfl : rest = [] := (List.cons.inj (List.cons.inj (List.cons.inj hentries).2).2).2.symm
  exact ⟨first, second, third, hentries, hlead, (hthree rfl (by decide)).2⟩

end Search

end EvidenceSynthesis
