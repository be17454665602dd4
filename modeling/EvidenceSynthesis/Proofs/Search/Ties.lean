import EvidenceSynthesis.Proofs.Search.Overtaking
import Mathlib

/-!
# Ties in a pool

Candidates enter a pool in the order of their first draws, and a draw that makes a tie moves
nothing.  Still tied candidates need not stand in that order: the one that was drawn first may have
been overtaken before it caught up.

Whatever the counts are, the order of two candidates is a matter of the two alone.  A draw changes
it only by lifting one of them past the other (`Reflects.standsBefore_observe_iff`), so that it is
the order of their first draws as long as each time that the younger one was lifted past the older
one, it was passed in turn later on (`Candidate.LiftedBack`).
-/

namespace EvidenceSynthesis

/-! ### Pairs in a list -/

section

variable {α : Type} {a b : α}

/-- Two members stand in a list of two parts in this order if they do so in one of the parts or the
first is in the one and the second in the other. -/
theorem pair_sublist_append_iff {front back : List α} :
    [a, b].Sublist (front ++ back) ↔
      [a, b].Sublist front ∨ a ∈ front ∧ b ∈ back ∨ [a, b].Sublist back := by
  rw [List.sublist_append_iff]
  constructor
  · rintro ⟨first, second, hpair, hfirst, hsecond⟩
    rcases first with _ | ⟨c, _ | ⟨d, rest⟩⟩
    · rw [List.nil_append] at hpair
      exact Or.inr (Or.inr (hpair ▸ hsecond))
    · obtain ⟨rfl, rfl⟩ := List.cons.inj hpair
      exact Or.inr (Or.inl ⟨List.singleton_sublist.1 hfirst, List.singleton_sublist.1 hsecond⟩)
    · simp only [List.cons_append, List.cons.injEq, List.nil_eq, List.append_eq_nil_iff] at hpair
      obtain ⟨rfl, rfl, rfl, -⟩ := hpair
      exact Or.inl hfirst
  · rintro (hfront | ⟨ha, hb⟩ | hback)
    · exact ⟨[a, b], [], rfl, hfront, List.nil_sublist _⟩
    · exact ⟨[a], [b], rfl, List.singleton_sublist.2 ha, List.singleton_sublist.2 hb⟩
    · exact ⟨[], [a, b], rfl, List.nil_sublist _, hback⟩

theorem pair_sublist_pair_iff {x y : α} : [a, b].Sublist [x, y] ↔ a = x ∧ b = y := by
  constructor
  · intro h
    simpa using h.eq_of_length rfl
  · rintro ⟨rfl, rfl⟩
    exact List.Sublist.refl _

/-- Two members stand in one order only where none is repeated. -/
theorem not_pair_sublist_of_nodup {items : List α} (hnodup : items.Nodup)
    (h : [a, b].Sublist items) : ¬ [b, a].Sublist items := by
  intro hback
  rw [← List.singleton_append, List.append_sublist_iff] at h
  obtain ⟨front, back, rfl, ha, hb⟩ := h
  rw [List.singleton_sublist] at ha hb
  have hdisjoint := (List.nodup_append.1 hnodup).2.2
  rcases pair_sublist_append_iff.1 hback with hfront | ⟨hfront, -⟩ | hrest
  · exact hdisjoint b (hfront.subset List.mem_cons_self) b hb rfl
  · exact hdisjoint b hfront b hb rfl
  · exact hdisjoint a ha a (hrest.subset (by simp)) rfl

/-- An exchange of neighbours turns round these two and no other two. -/
theorem pair_sublist_exchange_iff {earlier later : List α} {x y : α}
    (hnodup : (earlier ++ x :: y :: later).Nodup) :
    [a, b].Sublist (earlier ++ y :: x :: later) ↔
      a = y ∧ b = x ∨ [a, b].Sublist (earlier ++ x :: y :: later) ∧ ¬ (a = x ∧ b = y) := by
  have hsplit (x y : α) : earlier ++ x :: y :: later = earlier ++ ([x, y] ++ later) := rfl
  have hmem {items : List α} (h : [a, b].Sublist items) : a ∈ items ∧ b ∈ items :=
    ⟨h.subset (by simp), h.subset (by simp)⟩
  rw [hsplit] at hnodup
  simp only [hsplit, pair_sublist_append_iff, pair_sublist_pair_iff]
  grind

end

namespace Pool

/-- A draw lifts one candidate past another one: it has the tree of the first, which stands right
behind the other one and exceeds it when it is counted once more. -/
def Lifts (pool : Pool) (draw lifted passed : Candidate) : Prop :=
  ∃ earlier neighbour entry later, pool.entries = earlier ++ neighbour :: entry :: later ∧
    neighbour.candidate = passed ∧ entry.candidate = lifted ∧ lifted.same draw = true ∧
    neighbour.count < entry.count + 1

variable {pool : Pool} {draws : List Candidate} {draw lifted passed : Candidate}

/-! ### One draw -/

theorem Reflects.nodup_candidates (h : pool.Reflects draws) : pool.candidates.Nodup := by
  refine h.distinct.imp fun {a b} hab heq => ?_
  rw [heq, b.same_refl] at hab
  cases hab

/-- What a draw does that lifts one candidate past another one. -/
theorem Reflects.entries_of_lifts (h : pool.Reflects draws)
    (hlifts : pool.Lifts draw lifted passed) :
    ∃ earlier neighbour entry later, pool.entries = earlier ++ neighbour :: entry :: later ∧
      neighbour.candidate = passed ∧ entry.candidate = lifted ∧ neighbour.count < entry.count + 1 ∧
      (pool.observe draw).2.entries =
        earlier ++ { entry with count := entry.count + 1 } :: neighbour :: later := by
  obtain ⟨earlier, neighbour, entry, later, hentries, rfl, rfl, hsame, hlt⟩ := hlifts
  have hsplit : pool.entries = (earlier ++ [neighbour]) ++ entry :: later := by
    rw [hentries, List.append_assoc, List.singleton_append]
  have hbefore : ∀ other ∈ earlier ++ [neighbour], other.candidate.same draw = false :=
    fun other hother =>
      h.same_eq_false_of_split hsplit hsame other (List.mem_append_left later hother)
  refine ⟨earlier, neighbour, entry, later, hentries, rfl, rfl, hlt, ?_⟩
  rw [observe_of_split hsplit hbefore hsame, place_append_singleton, if_pos hlt]

/-- A draw that lifts nothing leaves the order as it is, up to a new candidate at the end. -/
theorem candidates_of_not_lifts (hnone : ∀ lifted passed, ¬ pool.Lifts draw lifted passed) :
    (pool.observe draw).2.candidates = pool.candidates ∨
      (∀ entry ∈ pool.entries, entry.candidate.same draw = false) ∧
        (pool.observe draw).2.candidates = pool.candidates ++ [draw] := by
  rcases observe_order pool draw with
    ⟨-, hsame⟩ | hnew | ⟨earlier, neighbour, entry, later, hentries, hsame, hlt, -⟩
  · exact Or.inl hsame
  · exact Or.inr hnew
  · exact absurd ⟨earlier, neighbour, entry, later, hentries, rfl, rfl, hsame, hlt⟩ (hnone _ _)

/-- A candidate that a draw brings in is the draw itself, and comes last. -/
theorem candidates_of_new {candidate : Candidate}
    (h : candidate ∈ (pool.observe draw).2.candidates) (hnew : candidate ∉ pool.candidates) :
    candidate = draw ∧ (∀ entry ∈ pool.entries, entry.candidate.same draw = false) ∧
      (pool.observe draw).2.candidates = pool.candidates ++ [draw] := by
  rcases observe_order pool draw with
    ⟨-, hsame⟩ | ⟨hnone, happend⟩ | ⟨earlier, neighbour, entry, later, hentries, -, -, hnext⟩
  · exact absurd (hsame ▸ h) hnew
  · rw [happend] at h
    exact ⟨List.mem_singleton.1 ((List.mem_append.1 h).resolve_left hnew), hnone, happend⟩
  · refine absurd ?_ hnew
    simp only [candidates, hnext, hentries, List.map_append, List.map_cons, List.mem_append,
      List.mem_cons] at h ⊢
    tauto

/-- After a draw one candidate stands in front of another one if the draw lifts it past that one, or
if it stood there before and the draw does not lift the other one past it. -/
theorem Reflects.standsBefore_observe_iff (h : pool.Reflects draws) (draw : Candidate)
    {front back : Candidate} (hback : back ∈ pool.candidates) :
    (pool.observe draw).2.StandsBefore front back ↔
      pool.Lifts draw front back ∨ pool.StandsBefore front back ∧ ¬ pool.Lifts draw back front := by
  have hstands {lifted passed : Candidate} (hlifts : pool.Lifts draw lifted passed) :
      (pool.observe draw).2.StandsBefore lifted passed := by
    obtain ⟨earlier, neighbour, entry, later, -, rfl, rfl, -, hnext⟩ := h.entries_of_lifts hlifts
    rw [StandsBefore, candidates, hnext, List.map_append, List.map_cons, List.map_cons]
    exact pair_sublist_append_iff.2
      (Or.inr (Or.inr (((List.nil_sublist _).cons_cons _).cons_cons _)))
  by_cases hlifts : ∃ lifted passed, pool.Lifts draw lifted passed
  · obtain ⟨lifted, passed, hlifts⟩ := hlifts
    obtain ⟨earlier, neighbour, entry, later, hentries, hneighbour, hentry, -, hnext⟩ :=
      h.entries_of_lifts hlifts
    have hnow : pool.candidates =
        earlier.map (·.candidate) ++ passed :: lifted :: later.map (·.candidate) := by
      simp [candidates, hentries, hneighbour, hentry]
    have hthen : (pool.observe draw).2.candidates =
        earlier.map (·.candidate) ++ lifted :: passed :: later.map (·.candidate) := by
      simp [candidates, hnext, hneighbour, hentry]
    have hexchange := pair_sublist_exchange_iff (a := front) (b := back) (hnow ▸ h.nodup_candidates)
    rw [← hnow, ← hthen] at hexchange
    constructor
    · intro hthen
      by_cases hfront : pool.Lifts draw front back
      · exact Or.inl hfront
      · rcases hexchange.1 hthen with ⟨rfl, rfl⟩ | ⟨hfront, -⟩
        · exact Or.inl hlifts
        · refine Or.inr ⟨hfront, fun hturned => ?_⟩
          exact not_pair_sublist_of_nodup (h.observe draw).nodup_candidates hthen (hstands hturned)
    · rintro (hfront | ⟨hfront, hturned⟩)
      · exact hstands hfront
      · refine hexchange.2 (Or.inr ⟨hfront, ?_⟩)
        rintro ⟨rfl, rfl⟩
        exact hturned hlifts
  · have hnone : ∀ lifted passed, ¬ pool.Lifts draw lifted passed := fun lifted passed hlifted =>
      hlifts ⟨lifted, passed, hlifted⟩
    simp only [hnone, not_false_eq_true, and_true, false_or]
    rcases candidates_of_not_lifts hnone with hsame | ⟨hnew, happend⟩
    · rw [StandsBefore, hsame, StandsBefore]
    · obtain ⟨entry, hentry, rfl⟩ := List.mem_map.1 hback
      have hne : entry.candidate ≠ draw := by
        rintro rfl
        have hfalse := hnew entry hentry
        rw [entry.candidate.same_refl] at hfalse
        cases hfalse
      rw [StandsBefore, happend, StandsBefore, pair_sublist_append_iff]
      simp [hne]

/-- After a draw that lifts one candidate past another one the first has the greater count, so that
a draw that makes a tie of two has lifted neither past the other. -/
theorem Reflects.countOf_lt_of_lifts (h : pool.Reflects draws)
    (hlifts : pool.Lifts draw lifted passed) :
    (pool.observe draw).2.countOf passed < (pool.observe draw).2.countOf lifted := by
  obtain ⟨earlier, neighbour, entry, later, -, rfl, rfl, hlt, hnext⟩ := h.entries_of_lifts hlifts
  have hthen := h.observe draw
  have hneighbour : neighbour ∈ (pool.observe draw).2.entries := by simp [hnext]
  have hentry : { entry with count := entry.count + 1 } ∈ (pool.observe draw).2.entries := by
    simp [hnext]
  rw [hthen.countOf_of_mem hneighbour, hthen.countOf_of_mem hentry]
  exact UInt32.lt_iff_toNat_lt.1 hlt

/-! ### Runs -/

/-- The candidates of a pool are the first draws of their trees. -/
theorem mem_candidates_observeAll_iff {candidate : Candidate} :
    candidate ∈ (empty.observeAll draws).candidates ↔
      draws.find? candidate.same = some candidate := by
  have hreflects := reflects_observeAll draws
  constructor
  · exact hreflects.first candidate
  · intro h
    obtain ⟨found, hfound, hsame⟩ := hreflects.complete candidate (List.mem_of_find?_eq_some h)
    have htests : found.same = candidate.same := Candidate.same_eq_same hsame
    have hfirst := hreflects.first found hfound
    rw [htests, h] at hfirst
    rwa [Option.some.inj hfirst]

/-- Candidates stay in a pool. -/
theorem mem_candidates_of_prefix {before : List Candidate} (hbefore : before <+: draws)
    {candidate : Candidate} (h : candidate ∈ (empty.observeAll before).candidates) :
    candidate ∈ (empty.observeAll draws).candidates := by
  obtain ⟨after, rfl⟩ := hbefore
  rw [mem_candidates_observeAll_iff] at h ⊢
  rw [List.find?_append, h, Option.some_or]

/-- A lifted candidate is in the pool. -/
theorem Lifts.mem_lifted (h : pool.Lifts draw lifted passed) : lifted ∈ pool.candidates := by
  obtain ⟨earlier, neighbour, entry, later, hentries, -, rfl, -⟩ := h
  simp [candidates, hentries]

end Pool

namespace Candidate

variable {draws : List Candidate} {draw lifted passed older younger : Candidate}

/-- The last draw of a run lifts one candidate past another one. -/
def EndsLifting (draws : List Candidate) (lifted passed : Candidate) : Prop :=
  ∃ before draw, draws = before ++ [draw] ∧ (Pool.empty.observeAll before).Lifts draw lifted passed

/-- Each time that the younger candidate was lifted past the older one, the older one was lifted
past the younger one again later on. -/
def LiftedBack (draws : List Candidate) (older younger : Candidate) : Prop :=
  ∀ moment, moment <+: draws → EndsLifting moment younger older →
    ∃ later, moment <+: later ∧ later <+: draws ∧ EndsLifting later older younger

/-- Draws end in lifting exactly if their last one lifts. -/
theorem endsLifting_append_singleton_iff :
    EndsLifting (draws ++ [draw]) lifted passed ↔
      (Pool.empty.observeAll draws).Lifts draw lifted passed := by
  constructor
  · rintro ⟨before, last, hdraws, hlifts⟩
    obtain ⟨rfl, hlast⟩ := List.append_inj' hdraws rfl
    obtain rfl := List.singleton_inj.1 hlast
    exact hlifts
  · intro h
    exact ⟨draws, draw, rfl, h⟩

/-- One more draw puts right what was turned round, or leaves it right. -/
theorem liftedBack_append_singleton_iff :
    LiftedBack (draws ++ [draw]) older younger ↔
      (Pool.empty.observeAll draws).Lifts draw older younger ∨
        LiftedBack draws older younger ∧
          ¬ (Pool.empty.observeAll draws).Lifts draw younger older := by
  simp only [← endsLifting_append_singleton_iff]
  constructor
  · intro h
    by_cases hback : EndsLifting (draws ++ [draw]) older younger
    · exact Or.inl hback
    · refine Or.inr ⟨fun moment hmoment hturned => ?_, fun hturned => ?_⟩
      · obtain ⟨later, hlater, hdrawn, hlifts⟩ :=
          h moment (hmoment.trans (List.prefix_append _ _)) hturned
        rcases List.prefix_concat_iff.1 hdrawn with rfl | hdrawn
        · exact absurd hlifts hback
        · exact ⟨later, hlater, hdrawn, hlifts⟩
      · obtain ⟨later, hlater, hdrawn, hlifts⟩ := h _ List.prefix_rfl hturned
        rw [hdrawn.eq_of_length_le hlater.length_le] at hlifts
        exact hback hlifts
  · rintro (hback | ⟨hbefore, hnone⟩) moment hmoment hturned
    · exact ⟨_, hmoment, List.prefix_rfl, hback⟩
    · rcases List.prefix_concat_iff.1 hmoment with rfl | hmoment
      · exact absurd hturned hnone
      · obtain ⟨later, hlater, hdrawn, hlifts⟩ := hbefore moment hmoment hturned
        exact ⟨later, hlater, hdrawn.trans (List.prefix_append _ _), hlifts⟩

/-- What has just been drawn for the first time was never lifted. -/
theorem liftedBack_of_not_mem (h : younger ∉ (Pool.empty.observeAll draws).candidates) :
    LiftedBack (draws ++ [draw]) older younger := by
  rintro moment hmoment ⟨before, last, rfl, hlifts⟩
  have hdrawn : before <+: draws := by
    obtain ⟨after, hafter⟩ := hmoment
    rw [List.append_assoc] at hafter
    refine List.prefix_of_prefix_length_le ⟨_, hafter⟩ (List.prefix_append _ _) ?_
    have hlength := congrArg List.length hafter
    simp only [List.length_append, List.length_singleton] at hlength
    omega
  exact absurd (Pool.mem_candidates_of_prefix hdrawn hlifts.mem_lifted) h

end Candidate

namespace Pool

variable {draws : List Candidate} {older younger : Candidate}

/-- Two candidates stand in the order of their first draws exactly if each time that the younger one
was lifted past the older one, it was passed in turn later on. -/
theorem standsBefore_observeAll_iff (holder : older ∈ (empty.observeAll draws).candidates)
    (hyounger : younger ∈ (empty.observeAll draws).candidates)
    (hage : Candidate.IsOlder draws older younger) :
    (empty.observeAll draws).StandsBefore older younger ↔
      Candidate.LiftedBack draws older younger := by
  induction draws using List.reverseRecOn with
  | nil => cases holder
  | append_singleton draws draw ih =>
    have hreflects := reflects_observeAll draws
    rw [observeAll_append_singleton] at holder hyounger ⊢
    have hne : older ≠ younger := by
      rintro rfl
      exact Nat.lt_irrefl _ hage
    by_cases hmem : younger ∈ (empty.observeAll draws).candidates
    · have holder' : older ∈ (empty.observeAll draws).candidates := by
        by_contra habsent
        obtain ⟨rfl, hnew, -⟩ := candidates_of_new holder habsent
        refine Candidate.not_isOlder_of_new (hreflects.same_eq_false_of_new hnew) ?_ hage
        exact List.mem_of_find?_eq_some (hreflects.first _ hmem)
      have hbefore := ih holder' hmem (hage.of_append ?_)
      · rw [hreflects.standsBefore_observe_iff draw hmem, hbefore,
          Candidate.liftedBack_append_singleton_iff]
      · exact List.mem_of_find?_eq_some (hreflects.first _ hmem)
    · -- the younger one has just come in, behind all others
      obtain ⟨rfl, -, happend⟩ := candidates_of_new hyounger hmem
      refine iff_of_true ?_ (Candidate.liftedBack_of_not_mem hmem)
      rw [happend, List.mem_append, List.mem_singleton] at holder
      rw [StandsBefore, happend]
      exact pair_sublist_append_iff.2
        (Or.inr (Or.inl ⟨holder.resolve_right hne, List.mem_singleton_self _⟩))

/-- In which order two candidates stand, tied or not.

They stand in the order of their first draws exactly if each time that the younger one was lifted
past the older one, the older one was lifted past it again later on: a draw lifts a candidate past
the one in front of it if it then exceeds that one.

A draw that makes a tie leaves the two as they stand.  So the order of a tie is the one that they
had before it, and not always that of the first draws. -/
theorem order_of_tied (draws : List Candidate) {older younger : Candidate}
    (holder : older ∈ (empty.observeAll draws).candidates)
    (hyounger : younger ∈ (empty.observeAll draws).candidates)
    (hage : Candidate.IsOlder draws older younger) :
    ((empty.observeAll draws).StandsBefore older younger ↔
      Candidate.LiftedBack draws older younger) ∧
    ∀ before draw after, draws = before ++ draw :: after →
      let pool := empty.observeAll before
      let next := (pool.observe draw).2
      next = empty.observeAll (before ++ [draw]) ∧
        (older ∈ pool.candidates → younger ∈ pool.candidates →
          next.countOf older = next.countOf younger →
            (next.StandsBefore older younger ↔ pool.StandsBefore older younger)) := by
  refine ⟨standsBefore_observeAll_iff holder hyounger hage, ?_⟩
  intro before draw after _ pool next
  refine ⟨(observeAll_append_singleton empty before draw).symm, fun _ hmem htied => ?_⟩
  have hreflects : pool.Reflects before := reflects_observeAll before
  have hup : ¬ pool.Lifts draw older younger := fun hlifts =>
    Nat.ne_of_gt (hreflects.countOf_lt_of_lifts hlifts) htied
  have hdown : ¬ pool.Lifts draw younger older := fun hlifts =>
    Nat.ne_of_lt (hreflects.countOf_lt_of_lifts hlifts) htied
  rw [hreflects.standsBefore_observe_iff draw hmem]
  simp only [hup, hdown, false_or, not_false_eq_true, and_true]

/-- A tie of two candidates of which the younger one was ahead for a while and was passed again. -/
theorem order_of_tied_passed_again :
    let candidate (kind : String) := Candidate.ofDraw (.single kind) []
    let draws := ["A", "B", "B", "A", "A", "B"].map candidate
    candidate "A" ∈ (empty.observeAll draws).candidates ∧
      candidate "B" ∈ (empty.observeAll draws).candidates ∧
      Candidate.IsOlder draws (candidate "A") (candidate "B") ∧
      Candidate.LiftedBack draws (candidate "A") (candidate "B") := by
  intro candidate draws
  have hpool : (empty.observeAll draws).candidates = [candidate "A", candidate "B"] := rfl
  have holder : candidate "A" ∈ (empty.observeAll draws).candidates := by simp [hpool]
  have hyounger : candidate "B" ∈ (empty.observeAll draws).candidates := by simp [hpool]
  have hage : Candidate.IsOlder draws (candidate "A") (candidate "B") := by
    unfold Candidate.IsOlder
    decide
  have hstands : (empty.observeAll draws).StandsBefore (candidate "A") (candidate "B") := by
    unfold StandsBefore
    rw [hpool]
  exact ⟨holder, hyounger, hage, (order_of_tied draws holder hyounger hage).1.1 hstands⟩

/-- The candidate that was drawn first has caught up, and stands behind the one that overtook it. -/
theorem tied_out_of_order :
    let candidate (kind : String) := Candidate.ofDraw (.single kind) []
    let draws := ["A", "B", "B", "A"].map candidate
    let pool := empty.observeAll draws
    Candidate.IsOlder draws (candidate "A") (candidate "B") ∧
      pool.countOf (candidate "A") = 2 ∧ pool.countOf (candidate "B") = 2 ∧
      pool.candidates = [candidate "B", candidate "A"] ∧
      ¬ pool.StandsBefore (candidate "A") (candidate "B") := by
  intro candidate draws pool
  have hpool : pool.candidates = [candidate "B", candidate "A"] := rfl
  have hstands : pool.StandsBefore (candidate "B") (candidate "A") := by
    unfold StandsBefore
    rw [hpool]
  refine ⟨?_, by decide, by decide, hpool, ?_⟩
  · unfold Candidate.IsOlder
    decide
  · exact not_pair_sublist_of_nodup (reflects_observeAll draws).nodup_candidates hstands

end Pool

end EvidenceSynthesis
