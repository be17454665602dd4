import EvidenceSynthesis.Proofs.Search.PoolCounts
import Mathlib

/-!
# Who overtakes whom in a pool

A pool is not sorted by its counts, so that the counts do not tell why one candidate stands in front
of another.  What does is the history of the two.  A draw changes one count, and at most it
exchanges the drawn candidate with the one in front of it, which it then exceeds
(`observe_order`); no other two candidates change their order.

The invariant is `Pool.PlacesEarned`: a candidate in front of an older one led it at some moment of
the run.  New candidates come last, and an exchange is such a moment, so that every draw keeps it
(`PlacesEarned.observe`).
-/

namespace EvidenceSynthesis

namespace Candidate

/-- The first draw of one tree came before the first draw of another one. -/
def IsOlder (draws : List Candidate) (older younger : Candidate) : Prop :=
  draws.findIdx older.same < draws.findIdx younger.same

/-- At some moment of the run, one tree had been drawn more often than another one. -/
def Led (draws : List Candidate) (leader other : Candidate) : Prop :=
  ∃ before, before <+: draws ∧ before.countP other.same < before.countP leader.same

variable {draws : List Candidate} {older younger leader other : Candidate}

/-- A lead is not undone by further draws. -/
theorem Led.append (h : Led draws leader other) (more : List Candidate) :
    Led (draws ++ more) leader other := by
  obtain ⟨before, hbefore, hlead⟩ := h
  exact ⟨before, hbefore.trans (List.prefix_append draws more), hlead⟩

theorem findIdx_lt_length (h : older ∈ draws) : draws.findIdx older.same < draws.length :=
  List.findIdx_lt_length_of_exists ⟨older, h, older.same_refl⟩

/-- Further draws do not change which of two drawn trees is older. -/
theorem IsOlder.of_append {more : List Candidate} (h : IsOlder (draws ++ more) older younger)
    (hyounger : younger ∈ draws) : IsOlder draws older younger := by
  unfold IsOlder at h ⊢
  rw [List.findIdx_append, List.findIdx_append, if_pos (findIdx_lt_length hyounger)] at h
  split at h
  · exact h
  · have := findIdx_lt_length hyounger
    omega

/-- What no draw had before is not older. -/
theorem not_isOlder_of_new {candidate : Candidate}
    (hnew : ∀ draw ∈ draws, candidate.same draw = false) (hyounger : younger ∈ draws) :
    ¬ IsOlder (draws ++ [candidate]) candidate younger := by
  intro h
  have hnone : draws.findIdx candidate.same = draws.length :=
    List.findIdx_eq_length.2 hnew
  unfold IsOlder at h
  have := findIdx_lt_length hyounger
  rw [List.findIdx_append, List.findIdx_append, if_pos this, hnone,
    if_neg (Nat.lt_irrefl _)] at h
  omega

end Candidate

namespace Pool

/-- The candidates of a pool, in its order. -/
def candidates (pool : Pool) : List Candidate :=
  pool.entries.map (·.candidate)

/-- The count of a tree, which is zero if it has no entry. -/
def countOf (pool : Pool) (candidate : Candidate) : Nat :=
  match pool.entries.find? fun entry => entry.candidate.same candidate with
  | some entry => entry.count.toNat
  | none => 0

/-- One candidate stands in front of another one. -/
def StandsBefore (pool : Pool) (front back : Candidate) : Prop :=
  [front, back].Sublist pool.candidates

/-! ### One draw -/

/-- A draw leaves the order as it is, or it appends a new candidate, or it exchanges its candidate
with the one in front of it, which it exceeds. -/
theorem observe_order (pool : Pool) (candidate : Candidate) :
    (∃ found ∈ pool.candidates, found.same candidate = true) ∧
        (pool.observe candidate).2.candidates = pool.candidates ∨
      (∀ entry ∈ pool.entries, entry.candidate.same candidate = false) ∧
        (pool.observe candidate).2.candidates = pool.candidates ++ [candidate] ∨
      ∃ earlier neighbour entry later, pool.entries = earlier ++ neighbour :: entry :: later ∧
        entry.candidate.same candidate = true ∧ neighbour.count < entry.count + 1 ∧
        (pool.observe candidate).2.entries =
          earlier ++ { entry with count := entry.count + 1 } :: neighbour :: later := by
  rcases observe_cases pool candidate with
    ⟨hnew, hobserve⟩ | ⟨before, entry, after, hentries, -, hsame, hobserve⟩
  · refine Or.inr (Or.inl ⟨hnew, ?_⟩)
    rw [hobserve]
    simp [candidates]
  · have hfound : ∃ found ∈ pool.candidates, found.same candidate = true :=
      ⟨entry.candidate, by simp [candidates, hentries], hsame⟩
    rw [hobserve]
    rcases place_cases before { entry with count := entry.count + 1 } after with
      ⟨rfl, hplace⟩ | ⟨earlier, neighbour, rfl, ⟨hlt, hplace⟩ | ⟨-, hplace⟩⟩
    · refine Or.inl ⟨hfound, ?_⟩
      rw [hplace]
      simp [candidates, hentries]
    · refine Or.inr (Or.inr ⟨earlier, neighbour, entry, after, ?_, hsame, hlt, ?_⟩)
      · rw [hentries]
        simp
      · rw [hplace]
    · refine Or.inl ⟨hfound, ?_⟩
      rw [hplace]
      simp [candidates, hentries]

/-- The count of a tree is the number of its draws. -/
theorem Reflects.countOf_eq {pool : Pool} {draws : List Candidate} (h : pool.Reflects draws)
    (hlength : draws.length < Word.bound32) (candidate : Candidate) :
    pool.countOf candidate = draws.countP candidate.same := by
  unfold countOf
  cases hfound : pool.entries.find? fun entry => entry.candidate.same candidate with
  | none =>
    have hnew : ∀ entry ∈ pool.entries, entry.candidate.same candidate = false := by
      simpa using hfound
    exact (List.countP_eq_zero.2 (by simpa using h.same_eq_false_of_new hnew)).symm
  | some entry =>
    have hsame : entry.candidate.same candidate = true := by
      simpa using List.find?_some hfound
    have htests : entry.candidate.same = candidate.same := Candidate.same_eq_same hsame
    rw [← htests]
    exact h.toNat_count hlength (List.mem_of_find?_eq_some hfound)

/-- The count of an entry is that of its tree. -/
theorem Reflects.countOf_of_mem {pool : Pool} {draws : List Candidate} (h : pool.Reflects draws)
    {entry : PoolEntry} (hentry : entry ∈ pool.entries) :
    pool.countOf entry.candidate = entry.count.toNat := by
  unfold countOf
  cases hfound : pool.entries.find? fun other => other.candidate.same entry.candidate with
  | none =>
    have hnone := List.find?_eq_none.1 hfound entry hentry
    exact absurd entry.candidate.same_refl hnone
  | some other =>
    have hsame : other.candidate.same entry.candidate = true := by
      simpa using List.find?_some hfound
    have htests : other.candidate.same = entry.candidate.same := Candidate.same_eq_same hsame
    have hcount : other.count = entry.count := by
      rw [h.count other (List.mem_of_find?_eq_some hfound), h.count entry hentry, htests]
    exact congrArg UInt32.toNat hcount

/-- Of two neighbours, the one in front was drawn more often if its count is greater. -/
theorem Reflects.countP_lt_of_front {pool : Pool} {draws : List Candidate}
    (h : pool.Reflects draws) (hlength : draws.length < Word.bound32)
    {earlier later : List PoolEntry} {moved neighbour : PoolEntry}
    (hentries : pool.entries = earlier ++ moved :: neighbour :: later)
    (hlt : neighbour.count < moved.count) :
    draws.countP neighbour.candidate.same < draws.countP moved.candidate.same := by
  have hmoved : moved ∈ pool.entries := by simp [hentries]
  have hneighbour : neighbour ∈ pool.entries := by simp [hentries]
  rw [← h.toNat_count hlength hneighbour, ← h.toNat_count hlength hmoved]
  exact UInt32.lt_iff_toNat_lt.1 hlt

/-! ### Runs -/

/-- Who stands in front of an older candidate led it at some moment of the run. -/
def PlacesEarned (pool : Pool) (draws : List Candidate) : Prop :=
  pool.candidates.Pairwise fun front back =>
    Candidate.IsOlder draws back front → Candidate.Led draws front back

/-- An exchange of neighbours keeps what holds of each pair if it holds of these in their new
order. -/
theorem pairwise_exchange {α : Type} {R : α → α → Prop} {earlier later : List α} {a b : α}
    (h : (earlier ++ a :: b :: later).Pairwise R) (hba : R b a) :
    (earlier ++ b :: a :: later).Pairwise R := by
  rw [List.pairwise_append, List.pairwise_cons, List.pairwise_cons] at h ⊢
  obtain ⟨hearlier, ⟨ha, hb, hlater⟩, hcross⟩ := h
  refine ⟨hearlier, ⟨?_, ?_, hlater⟩, ?_⟩
  · intro c hc
    rcases List.mem_cons.1 hc with rfl | hc
    · exact hba
    · exact hb c hc
  · exact fun c hc => ha c (List.mem_cons_of_mem b hc)
  · exact fun c hc d hd => hcross c hc d ((List.Perm.swap a b later).mem_iff.1 hd)

/-- A draw of a pool whose places are earned leaves them so. -/
theorem PlacesEarned.observe {pool : Pool} {draws : List Candidate}
    (hreflects : pool.Reflects draws) (hlength : draws.length + 1 < Word.bound32)
    (h : pool.PlacesEarned draws) (candidate : Candidate) :
    (pool.observe candidate).2.PlacesEarned (draws ++ [candidate]) := by
  have hdrawn : ∀ found ∈ pool.candidates, found ∈ draws := fun found hfound =>
    List.mem_of_find?_eq_some (hreflects.first found hfound)
  have hkept : pool.candidates.Pairwise fun front back =>
      Candidate.IsOlder (draws ++ [candidate]) back front →
        Candidate.Led (draws ++ [candidate]) front back := by
    refine h.imp_of_mem fun hfront _ hled holder => ?_
    exact (hled (holder.of_append (hdrawn _ hfront))).append [candidate]
  unfold PlacesEarned
  rcases observe_order pool candidate with
    ⟨-, hsame⟩ | ⟨hnew, happend⟩ | ⟨earlier, neighbour, entry, later, hentries, hsame, hlt, hnext⟩
  · rw [hsame]
    exact hkept
  · rw [happend, List.pairwise_append]
    refine ⟨hkept, List.pairwise_singleton _ _, fun front hfront back hback holder => ?_⟩
    rw [List.mem_singleton.1 hback] at holder
    have hnone := hreflects.same_eq_false_of_new hnew
    exact absurd holder (Candidate.not_isOlder_of_new hnone (hdrawn front hfront))
  · have hbound : (draws ++ [candidate]).length < Word.bound32 := by
      rwa [List.length_append, List.length_singleton]
    have hmore := (hreflects.observe candidate).countP_lt_of_front hbound hnext hlt
    have hlead : Candidate.Led (draws ++ [candidate]) entry.candidate neighbour.candidate :=
      ⟨_, List.prefix_rfl, hmore⟩
    have hexchange : (pool.observe candidate).2.candidates =
        earlier.map (·.candidate) ++ entry.candidate :: neighbour.candidate ::
          later.map (·.candidate) := by
      simp [candidates, hnext]
    rw [candidates, hentries, List.map_append, List.map_cons, List.map_cons] at hkept
    rw [hexchange]
    exact pairwise_exchange hkept fun _ => hlead

/-- The places of every run are earned. -/
theorem placesEarned_observeAll {draws : List Candidate} (hlength : draws.length < Word.bound32) :
    (empty.observeAll draws).PlacesEarned draws := by
  induction draws using List.reverseRecOn with
  | nil => exact List.Pairwise.nil
  | append_singleton draws candidate ih =>
    rw [List.length_append, List.length_singleton] at hlength
    rw [observeAll_append_singleton]
    exact (ih (by omega)).observe (reflects_observeAll draws) hlength candidate

/-- Of two different members of a list, one stands in front of the other. -/
theorem sublist_or_sublist_of_ne {α : Type} {items : List α} {a b : α} (ha : a ∈ items)
    (hb : b ∈ items) (hne : a ≠ b) : [a, b].Sublist items ∨ [b, a].Sublist items := by
  obtain ⟨before, after, rfl⟩ := List.append_of_mem ha
  rcases List.mem_append.1 hb with hbefore | hrest
  · right
    exact (List.singleton_sublist.2 hbefore).append (List.singleton_sublist.2 List.mem_cons_self)
  · left
    have hafter : b ∈ after := (List.mem_cons.1 hrest).resolve_left hne.symm
    exact ((List.singleton_sublist.2 hafter).cons_cons a).trans (List.sublist_append_right _ _)

/-- Who stands in front of an older candidate led it at some moment, so that whoever never did
stands behind it; and each draw adds one to the count of its tree alone, and leaves the order as it
is, up to a new candidate at the end, or exchanges its candidate with the one in front of it, which
it then exceeds. -/
theorem led_of_standsBefore (draws : List Candidate) (hlength : draws.length < Word.bound32) :
    (∀ older younger, Candidate.IsOlder draws older younger →
      (empty.observeAll draws).StandsBefore younger older → Candidate.Led draws younger older) ∧
    (∀ older ∈ (empty.observeAll draws).candidates,
      ∀ younger ∈ (empty.observeAll draws).candidates, Candidate.IsOlder draws older younger →
        ¬ Candidate.Led draws younger older →
          (empty.observeAll draws).StandsBefore older younger) ∧
    ∀ before candidate after, draws = before ++ candidate :: after →
      let pool := empty.observeAll before
      let next := (pool.observe candidate).2
      next = empty.observeAll (before ++ [candidate]) ∧
      (∀ other, next.countOf other =
        pool.countOf other + if other.same candidate = true then 1 else 0) ∧
      ((∃ found ∈ pool.candidates, found.same candidate = true) ∧
          next.candidates = pool.candidates ∨
        (∀ found ∈ pool.candidates, found.same candidate = false) ∧
          next.candidates = pool.candidates ++ [candidate] ∨
        ∃ earlier neighbour moved later,
          pool.candidates = earlier ++ neighbour :: moved :: later ∧
            moved.same candidate = true ∧ next.countOf neighbour < next.countOf moved ∧
            next.candidates = earlier ++ moved :: neighbour :: later) := by
  have hearned {front back : Candidate} (hstands : (empty.observeAll draws).StandsBefore front back)
      (holder : Candidate.IsOlder draws back front) : Candidate.Led draws front back :=
    List.pairwise_iff_forall_sublist.1 (placesEarned_observeAll hlength) hstands holder
  refine ⟨fun older younger holder hfront => hearned hfront holder, ?_, ?_⟩
  · intro older holder younger hyounger hage hled
    have hne : older ≠ younger := fun heq => Nat.lt_irrefl _ (heq ▸ hage)
    rcases sublist_or_sublist_of_ne holder hyounger hne with hstands | hstands
    · exact hstands
    · exact absurd (hearned hstands hage) hled
  · intro before candidate after hdraws pool next
    have hbound : (before ++ [candidate]).length < Word.bound32 := by
      rw [hdraws, List.length_append, List.length_cons] at hlength
      rw [List.length_append, List.length_singleton]
      omega
    have hreflects := reflects_observeAll before
    have hnextReflects : next.Reflects (before ++ [candidate]) := hreflects.observe candidate
    have hcount : ∀ other, next.countOf other = (before ++ [candidate]).countP other.same :=
      hnextReflects.countOf_eq hbound
    refine ⟨(observeAll_append_singleton empty before candidate).symm, fun other => ?_, ?_⟩
    · have hbefore : before.length < Word.bound32 := by
        rw [List.length_append, List.length_singleton] at hbound
        omega
      rw [hcount, hreflects.countOf_eq hbefore, List.countP_append, List.countP_singleton]
    · rcases observe_order pool candidate with
        hsame | ⟨hnew, happend⟩ | ⟨earlier, neighbour, entry, later, hentries, hsame, hlt, hnext⟩
      · exact Or.inl hsame
      · refine Or.inr (Or.inl ⟨fun found hfound => ?_, happend⟩)
        obtain ⟨entry, hentry, rfl⟩ := List.mem_map.1 hfound
        exact hnew entry hentry
      · have hmore := hnextReflects.countP_lt_of_front hbound hnext hlt
        rw [← hcount, ← hcount] at hmore
        exact Or.inr (Or.inr ⟨earlier.map (·.candidate), neighbour.candidate, entry.candidate,
          later.map (·.candidate), by simp [candidates, hentries], hsame, hmore,
          by simp [next, candidates, hnext]⟩)

/-- Four draws of three trees, of which the last one overtakes the second one behind the first. -/
theorem led_of_standsBefore_four :
    let candidate (kind : String) := Candidate.ofDraw (.single kind) []
    let draws := ["A", "B", "C", "C"].map candidate
    draws.length < Word.bound32 ∧ Candidate.IsOlder draws (candidate "B") (candidate "C") ∧
      (empty.observeAll draws).StandsBefore (candidate "C") (candidate "B") ∧
      Candidate.Led draws (candidate "C") (candidate "B") := by
  intro candidate draws
  have hlength : draws.length < Word.bound32 := by decide
  have holder : Candidate.IsOlder draws (candidate "B") (candidate "C") := by
    unfold Candidate.IsOlder
    decide
  have hpool : (empty.observeAll draws).candidates =
      [candidate "A", candidate "C", candidate "B"] := rfl
  have hstands : (empty.observeAll draws).StandsBefore (candidate "C") (candidate "B") := by
    unfold StandsBefore
    rw [hpool]
    exact List.sublist_cons_self _ _
  exact ⟨hlength, holder, hstands,
    (led_of_standsBefore draws hlength).1 _ _ holder hstands⟩

end Pool

end EvidenceSynthesis
