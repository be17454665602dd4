import EvidenceSynthesis.Proofs.Search.Transcript

/-!
# What a search answers

The answer to evidence is read off the pool of a run: its first entries are cut off, those
that do not cover the evidence are left out, and each of the others is given with its count.
`select_eq` has the answer in this form, by the entries of the pool, and all that is said of
an answer follows from what `Pool.Reflects` says of these entries.

An entry is tested by the set of the calls of one draw, its first.  Coverage depends on the
members of a list of calls alone (`Evidence.isCoveredBy_congr`), so that the list of calls
which that draw brought decides in the same way.
-/

namespace EvidenceSynthesis

/-! ### Coverage -/

namespace Evidence

/-- Lists of the same calls cover the same evidence. -/
theorem isCoveredBy_congr (evidence : Evidence) {calls others : List String}
    (h : ∀ call, call ∈ calls ↔ call ∈ others) :
    evidence.isCoveredBy calls = evidence.isCoveredBy others := by
  rw [Bool.eq_iff_iff, isCoveredBy_iff, isCoveredBy_iff]
  simp only [h]

end Evidence

namespace PoolEntry

/-- Whether every requested token is yielded by a call of an entry. -/
def Covers (entry : PoolEntry) (evidence : Evidence) : Prop :=
  ∀ kind, ∀ token ∈ evidence.get kind,
    ∃ call ∈ entry.candidate.calls, token ∈ kind.extract call

theorem isCoveredBy_calls_iff {entry : PoolEntry} {evidence : Evidence} :
    evidence.isCoveredBy entry.candidate.calls.toList = true ↔ entry.Covers evidence :=
  Evidence.isCoveredBy_iff

instance (entry : PoolEntry) (evidence : Evidence) : Decidable (entry.Covers evidence) :=
  decidable_of_iff _ isCoveredBy_calls_iff

/-- What covers evidence covers all evidence with fewer tokens. -/
theorem Covers.mono {entry : PoolEntry} {requested wider : Evidence}
    (h : entry.Covers wider)
    (hwider : ∀ kind, ∀ token ∈ requested.get kind, token ∈ wider.get kind) :
    entry.Covers requested := by
  intro kind token htoken
  exact h kind token (hwider kind token htoken)

/-- The candidate of an entry with the number of its draws. -/
def counted (entry : PoolEntry) : Candidate :=
  { entry.candidate with count := entry.count }

end PoolEntry

/-! ### The first draw of a tree -/

/-- The first candidate that passes a test comes from the first draw whose candidate
passes it. -/
theorem Draw.find?_eq_some_of_find?_candidates {draws : List Draw} {test : Candidate → Bool}
    {candidate : Candidate}
    (h : (draws.filterMap Draw.candidate?).find? test = some candidate) :
    ∃ tree calls, draws.find? (fun draw => draw.candidate?.any test) =
        some (.sampled tree calls) ∧
      candidate = .ofDraw tree calls := by
  rw [List.find?_filterMap, Option.bind_eq_some_iff] at h
  obtain ⟨draw, hfind, hcandidate⟩ := h
  cases draw with
  | sampled tree calls =>
    rw [candidate?_sampled, Option.some.injEq] at hcandidate
    exact ⟨tree, calls, hfind, hcandidate.symm⟩
  | inconsistent reason => cases hcandidate
  | failed error => cases hcandidate
  | crashed => cases hcandidate

/-- The calls of the first draw of its tree decide whether an entry covers evidence: any
list of these calls does, whatever its order and its repetitions. -/
theorem Pool.Reflects.isCoveredBy_first_draw {pool : Pool} {draws : List Draw}
    (h : pool.Reflects (draws.filterMap Draw.candidate?)) {entry : PoolEntry}
    (hentry : entry ∈ pool.entries) (evidence : Evidence) :
    ∃ tree calls,
      draws.find? (fun draw => draw.candidate?.any entry.candidate.same) =
          some (.sampled tree calls) ∧
        entry.candidate.tree = tree ∧
        ∀ raw, (∀ call, call ∈ raw ↔ call ∈ calls) →
          evidence.isCoveredBy raw = decide (entry.Covers evidence) := by
  obtain ⟨tree, calls, hfind, hcandidate⟩ :=
    Draw.find?_eq_some_of_find?_candidates (h.first _ (List.mem_map_of_mem hentry))
  refine ⟨tree, calls, hfind, by rw [hcandidate]; rfl, ?_⟩
  intro raw hraw
  have hstored : ∀ call, call ∈ raw ↔ call ∈ entry.candidate.calls.toList := by
    intro call
    rw [hraw, hcandidate]
    exact TokenSet.mem_ofList.symm
  rw [evidence.isCoveredBy_congr hstored, Bool.eq_iff_iff, decide_eq_true_iff]
  exact PoolEntry.isCoveredBy_calls_iff

/-! ### The selection -/

namespace Search

/-- A selection by the entries of the pool. -/
theorem select_eq (search : Search) (run : Run) (evidence : Evidence) :
    search.select run evidence =
      ((run.pool.entries.take search.limits.topK.toNat).filter
        fun entry => entry.Covers evidence).map PoolEntry.counted := by
  have htests : ((fun candidate : Candidate => evidence.isCoveredBy candidate.calls.toList) ∘
      PoolEntry.counted) = fun entry => decide (entry.Covers evidence) := by
    funext entry
    rw [Bool.eq_iff_iff, decide_eq_true_iff]
    exact PoolEntry.isCoveredBy_calls_iff
  rw [select, Pool.ranked, ← List.map_take, List.filter_map, ← htests]
  rfl

/-- The entries that a selection is read off stand in the pool in the same order. -/
theorem covering_sublist (search : Search) (run : Run) (evidence : Evidence) :
    ((run.pool.entries.take search.limits.topK.toNat).filter
      fun entry => entry.Covers evidence).Sublist run.pool.entries :=
  List.filter_sublist.trans (List.take_sublist _ _)

/-- What is selected are the covering entries among the first, with their counts. -/
theorem mem_select_iff {search : Search} {run : Run} {evidence : Evidence}
    {candidate : Candidate} :
    candidate ∈ search.select run evidence ↔
      ∃ entry ∈ run.pool.entries.take search.limits.topK.toNat,
        entry.Covers evidence ∧ entry.counted = candidate := by
  simp only [select_eq, List.mem_map, List.mem_filter, decide_eq_true_iff, and_assoc]

/-- No more candidates are selected than the limit allows. -/
theorem length_select_le (search : Search) (run : Run) (evidence : Evidence) :
    (search.select run evidence).length ≤ search.limits.topK.toNat := by
  rw [select_eq, List.length_map]
  calc ((run.pool.entries.take search.limits.topK.toNat).filter
        fun entry => entry.Covers evidence).length
      ≤ (run.pool.entries.take search.limits.topK.toNat).length := List.length_filter_le _ _
    _ ≤ search.limits.topK.toNat := List.length_take_le _ _

/-- More evidence selects fewer of the candidates and keeps their order. -/
theorem select_sublist_of_wider (search : Search) (run : Run) {requested wider : Evidence}
    (h : ∀ kind, ∀ token ∈ requested.get kind, token ∈ wider.get kind) :
    (search.select run wider).Sublist (search.select run requested) := by
  rw [select_eq, select_eq]
  refine (List.monotone_filter_right _ fun entry hentry => ?_).map _
  rw [decide_eq_true_iff] at hentry ⊢
  exact hentry.mono h

/-- The counts of a selection add up to no more than those of the pool. -/
theorem sum_counts_select_le (search : Search) (run : Run) (evidence : Evidence) :
    ((search.select run evidence).map fun candidate => candidate.count.toNat).sum ≤
      run.pool.total := by
  have hcounts := (search.covering_sublist run evidence).map fun entry => entry.count.toNat
  rw [select_eq, List.map_map, Pool.total, Pool.counts, List.map_map]
  exact hcounts.sum_le_sum fun count _ => Nat.zero_le count

section

variable {search : Search} {run : Run} {candidates : List Candidate}

/-- Candidates of a selection differ in their trees, as entries do. -/
theorem pairwise_select (h : run.pool.Reflects candidates) (evidence : Evidence) :
    (search.select run evidence).Pairwise fun a b => a.same b = false := by
  rw [select_eq, List.pairwise_map]
  exact (List.pairwise_map.1 h.distinct).sublist (search.covering_sublist run evidence)

/-- A selected candidate comes with the number of draws of its tree. -/
theorem toNat_count_of_mem_select (h : run.pool.Reflects candidates)
    (hlength : candidates.length < Word.bound32) {evidence : Evidence} {candidate : Candidate}
    (hcandidate : candidate ∈ search.select run evidence) :
    candidate.count.toNat = candidates.countP candidate.same ∧ 1 ≤ candidate.count.toNat := by
  obtain ⟨entry, hentry, _, rfl⟩ := mem_select_iff.1 hcandidate
  have hmem := List.mem_of_mem_take hentry
  exact ⟨h.toNat_count hlength hmem, h.one_le_toNat_count hlength hmem⟩

/-- No entry behind the first ones is selected in place of one that is left out. -/
theorem same_eq_false_of_mem_drop (h : run.pool.Reflects candidates) {evidence : Evidence}
    {candidate : Candidate} (hcandidate : candidate ∈ search.select run evidence)
    {entry : PoolEntry} (hentry : entry ∈ run.pool.entries.drop search.limits.topK.toNat) :
    candidate.same entry.candidate = false := by
  obtain ⟨selected, hselected, _, rfl⟩ := mem_select_iff.1 hcandidate
  have hdistinct := List.pairwise_map.1 h.distinct
  rw [← List.take_append_drop search.limits.topK.toNat run.pool.entries,
    List.pairwise_append] at hdistinct
  exact hdistinct.2.2 selected hselected entry hentry

end

/-! ### The answer -/

variable {σ : Type}

/-- A search that answers has made a run and selects from it. -/
theorem answer_eq_ok_iff {search : Search} {predictor : Predictor σ} {evidence : Evidence}
    {state final : σ} {result : List Candidate} :
    search.answer predictor evidence state = (.ok result, final) ↔
      ∃ run, search.sample predictor evidence state = (.ok run, final) ∧
        result = search.select run evidence := by
  unfold answer
  rcases hsample : search.sample predictor evidence state with ⟨interruption | run, last⟩
  · simp
  · simp only [Prod.mk.injEq, Except.ok.injEq]
    constructor
    · rintro ⟨rfl, rfl⟩
      exact ⟨run, ⟨rfl, rfl⟩, rfl⟩
    · rintro ⟨_, ⟨rfl, rfl⟩, rfl⟩
      exact ⟨rfl, rfl⟩

/-- A search of which every draw is rejected makes all draws that it may, and selects nothing. -/
theorem runOf_of_inconsistent (search : Search) (predictor : Predictor σ) (evidence : Evidence)
    (state : σ)
    (h : ∀ n, ∃ reason, predictor.outcome evidence state n = .inconsistent reason) :
    let n := search.drawCount predictor evidence state
    let run := search.runOf predictor evidence state n
    n = search.limits.maxDraws.toNat ∧ run.rejected = n ∧ search.select run evidence = [] := by
  intro n run
  have hdraws : ∀ draw ∈ predictor.transcript evidence state n, ∃ reason,
      draw = .inconsistent reason := by
    intro draw hdraw
    obtain ⟨i, -, rfl⟩ := (predictor.mem_transcript_iff evidence state).1 hdraw
    exact h i
  refine ⟨?_, ?_, ?_⟩
  · refine Nat.le_antisymm (search.drawCount_le predictor evidence state) (Nat.le_of_not_lt ?_)
    intro hlt
    have hsampled := (search.endsWith_drawCount predictor evidence state hlt).1
    rw [Option.any_eq_true] at hsampled
    obtain ⟨last, hlast, hsampled⟩ := hsampled
    obtain ⟨reason, rfl⟩ := hdraws last (List.mem_of_getLast? hlast)
    cases hsampled
  · have hall : (predictor.transcript evidence state n).countP Draw.isInconsistent =
        (predictor.transcript evidence state n).length := by
      refine List.countP_eq_length.2 fun draw hdraw => ?_
      obtain ⟨reason, rfl⟩ := hdraws draw hdraw
      rfl
    exact hall.trans (predictor.length_transcript evidence state n)
  · have hcandidates : (predictor.transcript evidence state n).filterMap Draw.candidate? = [] := by
      refine List.filterMap_eq_nil_iff.2 fun draw hdraw => ?_
      obtain ⟨reason, rfl⟩ := hdraws draw hdraw
      rfl
    have hpool : run.pool = .empty := by
      simp only [run, runOf, Pool.ofDraws, hcandidates]
      rfl
    rw [select_eq, hpool, Pool.empty, List.take_nil]
    rfl

/-- An answer after fewer than `2 ^ 32` draws.  It consists of those among the first entries
of the pool that cover the evidence, in the order of the pool: at most as many as are
considered, with different trees, each with the number of the draws of its tree, at least
one, and together with no more draws than are allowed.  No later entry takes the place of
one that is left out.  The calls of the first draw of its tree, listed in any way, decide
whether an entry covers the evidence, and more evidence selects fewer candidates of the
same run. -/
theorem answer_eq_covering_entries (search : Search) (predictor : Predictor σ)
    (evidence : Evidence) (state : σ) {result : List Candidate} {final : σ}
    (hanswer : search.answer predictor evidence state = (.ok result, final))
    (hlength : (search.drawsMade predictor evidence state).length < Word.bound32) :
    let draws := search.drawsMade predictor evidence state
    let considered := search.limits.topK.toNat
    ∃ run, search.sample predictor evidence state = (.ok run, final) ∧
      result = ((run.pool.entries.take considered).filter
        fun entry => entry.Covers evidence).map PoolEntry.counted ∧
      result.length ≤ considered ∧
      (result.Pairwise fun a b => a.same b = false) ∧
      (∀ candidate ∈ result,
        candidate.count.toNat =
            (draws.filterMap Draw.candidate?).countP candidate.same ∧
          1 ≤ candidate.count.toNat) ∧
      (result.map fun candidate => candidate.count.toNat).sum ≤
        search.limits.maxDraws.toNat ∧
      (∀ candidate ∈ result, ∀ entry ∈ run.pool.entries.drop considered,
        candidate.same entry.candidate = false) ∧
      (∀ entry ∈ run.pool.entries, ∃ tree calls,
        draws.find? (fun draw => draw.candidate?.any entry.candidate.same) =
            some (.sampled tree calls) ∧
          entry.candidate.tree = tree ∧
          ∀ raw, (∀ call, call ∈ raw ↔ call ∈ calls) →
            evidence.isCoveredBy raw = decide (entry.Covers evidence)) ∧
      ∀ requested wider : Evidence,
        (∀ kind, ∀ token ∈ requested.get kind, token ∈ wider.get kind) →
        (search.select run wider).Sublist (search.select run requested) := by
  intro draws considered
  obtain ⟨run, hsample, rfl⟩ := answer_eq_ok_iff.1 hanswer
  obtain ⟨hpool, hdraws⟩ := search.pool_eq_of_sample_eq_ok predictor evidence state hsample
  have hreflects : run.pool.Reflects (draws.filterMap Draw.candidate?) := by
    rw [hpool]
    exact Pool.reflects_observeAll _
  have hcandidates : (draws.filterMap Draw.candidate?).length ≤ draws.length :=
    List.length_filterMap_le _ _
  have hbound := Nat.lt_of_le_of_lt hcandidates hlength
  have htotal : run.pool.total ≤ search.limits.maxDraws.toNat := by
    rw [hpool, Pool.ofDraws, Pool.total_observeAll hbound]
    exact hcandidates.trans hdraws
  refine ⟨run, hsample, search.select_eq run evidence, search.length_select_le run evidence,
    pairwise_select hreflects evidence, ?_, ?_, ?_, ?_, ?_⟩
  · intro candidate hcandidate
    exact toNat_count_of_mem_select hreflects hbound hcandidate
  · exact (search.sum_counts_select_le run evidence).trans htotal
  · intro candidate hcandidate entry hentry
    exact same_eq_false_of_mem_drop hreflects hcandidate hentry
  · intro entry hentry
    exact hreflects.isCoveredBy_first_draw hentry evidence
  · intro requested wider hwider
    exact search.select_sublist_of_wider run hwider

/-- Five draws of four trees, of which the first three are considered.  The second one does not call
what is asked for and is left out, and the fourth one, which does, does not take its place. -/
theorem answer_eq_covering_entries_dropped :
    let search : Search := ⟨⟨5, 10, 3⟩, by decide⟩
    let asked := ["java.io.File.exists()"]
    let predictor : Predictor Nat := .ofDraws
      [.sampled (.single "A") asked, .sampled (.single "B") [], .sampled (.single "A") [],
        .sampled (.single "C") asked, .sampled (.single "D") asked]
    let evidence := Evidence.empty.add .apiCalls ["exists"]
    ∃ first second, search.answer predictor evidence 0 = (.ok [first, second], 5) ∧
      (search.drawsMade predictor evidence 0).length < Word.bound32 ∧
      first.tree = .single "A" ∧ first.count.toNat = 2 ∧
      second.tree = .single "C" ∧ second.count.toNat = 1 ∧
      first.same second = false ∧ ∃ run, search.sample predictor evidence 0 = (.ok run, 5) ∧
        ∀ entry ∈ run.pool.entries.drop 3, second.same entry.candidate = false := by
  intro search asked predictor evidence
  have hmade : search.drawsMade predictor evidence 0 =
      [.sampled (.single "A") asked, .sampled (.single "B") [], .sampled (.single "A") [],
        .sampled (.single "C") asked, .sampled (.single "D") asked] := by cbv
  have hlength : (search.drawsMade predictor evidence 0).length < Word.bound32 := by
    rw [hmade]
    decide
  have hanswer : ∃ first second, search.answer predictor evidence 0 = (.ok [first, second], 5) ∧
      first.tree = .single "A" ∧ second.tree = .single "C" := ⟨_, _, by cbv, rfl, rfl⟩
  obtain ⟨first, second, hanswer, hfirst, hsecond⟩ := hanswer
  obtain ⟨run, hsample, -, -, hdifferent, hcounts, -, hdropped, -⟩ :=
    answer_eq_covering_entries search predictor evidence 0 hanswer hlength
  have hcount := (hcounts first (by simp)).1
  have hother := (hcounts second (by simp)).1
  rw [hmade] at hcount hother
  have hsame : ∀ candidate : Candidate,
      candidate.same = (Candidate.ofDraw candidate.tree []).same := fun _ => rfl
  refine ⟨first, second, hanswer, hlength, hfirst, hcount.trans ?_, hsecond, hother.trans ?_, ?_,
    run, hsample, hdropped second (by simp)⟩
  · rw [hsame, hfirst]
    cbv
  · rw [hsame, hsecond]
    cbv
  · exact List.rel_of_pairwise_cons hdifferent (List.mem_singleton_self second)

end Search

end EvidenceSynthesis
