import EvidenceSynthesis.Proofs.Evidence.Requests
import Mathlib

/-!
# Derived and requested evidence

Evidence is ordered by inclusion, kind by kind.  What a list of calls yields is the union of what
each of them yields (`ofCalls_append`, `ofCalls_eq_foldl`), so that it depends on the set of the
calls alone and grows with it (`ofCalls_mono`).

Whether calls cover a request, and which tokens they miss, are two views of this order: they cover
it if it is below what they yield (`isCoveredBy_iff_le`), and the missing tokens are those by which
it is not (`mem_missing`).  Without its missing tokens a request is therefore the greatest part of
it that is covered (`isGreatest_without_missing`).
-/

namespace EvidenceSynthesis.Evidence

/-! ### Inclusion -/

/-- Evidence is below evidence that has all of its tokens. -/
instance : PartialOrder Evidence where
  le a b := ∀ kind, ∀ token ∈ a.get kind, token ∈ b.get kind
  le_refl _ _ _ h := h
  le_trans _ _ _ hab hbc kind token h := hbc kind token (hab kind token h)
  le_antisymm _ _ hab hba :=
    ext_get fun kind => TokenSet.ext fun token => ⟨hab kind token, hba kind token⟩

/-- Evidence is part of other evidence if each of its tokens is. -/
theorem le_iff {a b : Evidence} : a ≤ b ↔ ∀ kind, ∀ token ∈ a.get kind, token ∈ b.get kind :=
  Iff.rfl

/-- The tokens of either side, kind by kind. -/
def union (a b : Evidence) : Evidence :=
  ofKinds fun kind => (a.get kind).union (b.get kind)

@[simp] theorem get_union (a b : Evidence) (kind : Kind) :
    (a.union b).get kind = (a.get kind).union (b.get kind) :=
  get_ofKinds _ kind

theorem mem_get_union {a b : Evidence} {kind : Kind} {token : String} :
    token ∈ (a.union b).get kind ↔ token ∈ a.get kind ∨ token ∈ b.get kind := by
  rw [get_union, TokenSet.mem_union]

/-! ### What calls yield -/

/-- Together, two lists of calls yield what each of them yields. -/
theorem ofCalls_append (calls others : List String) :
    ofCalls (calls ++ others) = (ofCalls calls).union (ofCalls others) := by
  refine ext_get fun kind => TokenSet.ext fun token => ?_
  rw [mem_get_union, mem_ofCalls, mem_ofCalls, mem_ofCalls]
  simp only [List.mem_append, or_and_right, exists_or]

/-- More calls yield more. -/
theorem ofCalls_mono {calls others : List String} (h : ∀ call ∈ calls, call ∈ others) :
    ofCalls calls ≤ ofCalls others := by
  intro kind token htoken
  obtain ⟨call, hcall, hextract⟩ := mem_ofCalls.1 htoken
  exact mem_ofCalls.2 ⟨call, h call hcall, hextract⟩

/-- The order of calls and their repetitions have no effect. -/
theorem ofCalls_congr {calls others : List String} (h : ∀ call, call ∈ calls ↔ call ∈ others) :
    ofCalls calls = ofCalls others :=
  le_antisymm (ofCalls_mono fun call => (h call).1) (ofCalls_mono fun call => (h call).2)

/-- Adds what a call yields, one kind after another. -/
def addCall (evidence : Evidence) (call : String) : Evidence :=
  Kind.all.foldl (fun evidence kind => evidence.add kind (kind.extract call)) evidence

/-- Adding tokens of a kind adds them to that kind alone. -/
theorem mem_get_add {evidence : Evidence} {k kind : Kind} {tokens : List String} {token : String} :
    token ∈ (evidence.add k tokens).get kind ↔
      token ∈ evidence.get kind ∨ kind = k ∧ token ∈ tokens := by
  rw [add, get_modify]
  split
  · rename_i h
    simp [h]
  · rename_i h
    simp [h]

/-- Adding a call is adding what it yields. -/
theorem addCall_eq (evidence : Evidence) (call : String) :
    evidence.addCall call = evidence.union (ofCalls [call]) := by
  refine ext_get fun kind => TokenSet.ext fun token => ?_
  rw [mem_get_union, mem_ofCalls]
  simp only [addCall, Kind.all, List.foldl_cons, List.foldl_nil, mem_get_add]
  cases kind <;> simp

/-- What calls yield can be collected call by call. -/
theorem ofCalls_eq_foldl (calls : List String) : ofCalls calls = calls.foldl addCall empty := by
  induction calls using List.reverseRecOn with
  | nil => exact ext_get fun kind => TokenSet.ext fun token => by simp [mem_ofCalls, empty]
  | append_singleton calls call ih =>
    rw [List.foldl_append, List.foldl_cons, List.foldl_nil, ← ih, addCall_eq, ofCalls_append]

/-! ### Coverage -/

/-- Evidence is covered if it is below what the calls yield. -/
theorem isCoveredBy_iff_le {requested : Evidence} {calls : List String} :
    requested.isCoveredBy calls = true ↔ requested ≤ ofCalls calls := by
  rw [isCoveredBy_iff, le_iff]
  simp only [mem_ofCalls]

/-- The missing tokens are those that are requested and not derived. -/
theorem mem_missing {requested derived : Evidence} {kind : Kind} {token : String} :
    (kind, token) ∈ requested.missing derived ↔
      token ∈ requested.get kind ∧ token ∉ derived.get kind := by
  simp [missing, kind.mem_all, TokenSet.mem_toList]

/-- Nothing is missing of what is below the derived evidence. -/
theorem missing_eq_nil_iff {requested derived : Evidence} :
    requested.missing derived = [] ↔ requested ≤ derived := by
  rw [List.eq_nil_iff_forall_not_mem, le_iff]
  constructor
  · intro h kind token hrequested
    by_contra hderived
    exact h (kind, token) (mem_missing.2 ⟨hrequested, hderived⟩)
  · rintro h ⟨kind, token⟩ hmissing
    obtain ⟨hrequested, hderived⟩ := mem_missing.1 hmissing
    exact hderived (h kind token hrequested)

/-- The order in which tokens are reported: by kind, and within a kind by code point. -/
def ReportedBefore : Kind × String → Kind × String → Prop :=
  Prod.Lex (fun k l => Kind.all.idxOf k < Kind.all.idxOf l) (· < ·)

theorem ReportedBefore.ne {p q : Kind × String} (h : ReportedBefore p q) : p ≠ q := by
  rintro rfl
  rcases Prod.lex_def.1 h with hkind | ⟨-, htoken⟩
  · exact Nat.lt_irrefl _ hkind
  · exact String.lt_irrefl _ htoken

/-- The missing tokens are reported in order. -/
theorem pairwise_missing (requested derived : Evidence) :
    (requested.missing derived).Pairwise ReportedBefore := by
  have hkinds : Kind.all.Pairwise fun k l => Kind.all.idxOf k < Kind.all.idxOf l := by decide
  rw [missing, List.pairwise_flatMap]
  constructor
  · intro kind _
    rw [List.pairwise_map]
    exact ((requested.get kind).diff (derived.get kind)).sorted.imp fun h => Prod.Lex.right kind h
  · refine hkinds.imp fun {k l} hkl => ?_
    intro p hp q hq
    obtain ⟨s, -, rfl⟩ := List.mem_map.1 hp
    obtain ⟨t, -, rfl⟩ := List.mem_map.1 hq
    exact Prod.Lex.left s t hkl

/-- No missing token is reported twice. -/
theorem nodup_missing (requested derived : Evidence) : (requested.missing derived).Nodup :=
  List.nodup_iff_pairwise_ne.2 ((pairwise_missing requested derived).imp ReportedBefore.ne)

/-! ### The part that is covered -/

/-- Removes tokens of given kinds. -/
def without (evidence : Evidence) (pairs : List (Kind × String)) : Evidence :=
  pairs.foldl (fun evidence pair => evidence.remove pair.1 [pair.2]) evidence

theorem mem_get_remove {evidence : Evidence} {k kind : Kind} {removed token : String} :
    token ∈ (evidence.remove k [removed]).get kind ↔
      token ∈ evidence.get kind ∧ (kind, token) ≠ (k, removed) := by
  rw [remove, get_modify]
  split
  · rename_i h
    simp [h]
  · rename_i h
    simp [h]

/-- Evidence without some tokens has all the others. -/
theorem mem_get_without {evidence : Evidence} {pairs : List (Kind × String)} {kind : Kind}
    {token : String} :
    token ∈ (evidence.without pairs).get kind ↔
      token ∈ evidence.get kind ∧ (kind, token) ∉ pairs := by
  induction pairs generalizing evidence with
  | nil => simp [without]
  | cons pair pairs ih =>
    rw [without, List.foldl_cons, ← without, ih, mem_get_remove, List.mem_cons, not_or, and_assoc]

/-- Without the missing tokens, evidence is the greatest part of it that is derived. -/
theorem isGreatest_without_missing (requested derived : Evidence) :
    IsGreatest {part | part ≤ requested ∧ part ≤ derived}
      (requested.without (requested.missing derived)) := by
  refine ⟨⟨fun kind token htoken => ?_, fun kind token htoken => ?_⟩, ?_⟩
  · exact (mem_get_without.1 htoken).1
  · obtain ⟨hrequested, hmissing⟩ := mem_get_without.1 htoken
    by_contra hderived
    exact hmissing (mem_missing.2 ⟨hrequested, hderived⟩)
  · rintro part ⟨hrequested, hderived⟩ kind token htoken
    refine mem_get_without.2 ⟨hrequested kind token htoken, fun hmissing => ?_⟩
    exact (mem_missing.1 hmissing).2 (hderived kind token htoken)

/-- What calls yield is the union of what each of them yields, and depends on the set of the calls
alone.  Calls cover a request if and only if each of its tokens is yielded by one of them, and if
and only if nothing is missing; what is missing is listed once, by kind and by code point; more
calls and fewer tokens keep a request covered; and without what is missing, a request is the
greatest part of it that is covered. -/
theorem coverage_iff_missing :
    (∀ calls others, ofCalls (calls ++ others) = (ofCalls calls).union (ofCalls others)) ∧
    (∀ calls others, (∀ call, call ∈ calls ↔ call ∈ others) → ofCalls calls = ofCalls others) ∧
    (∀ calls, ofCalls calls = calls.foldl addCall empty) ∧
    (∀ requested derived : Evidence,
      (∀ kind token, (kind, token) ∈ requested.missing derived ↔
        token ∈ requested.get kind ∧ token ∉ derived.get kind) ∧
      (requested.missing derived).Nodup ∧
      (requested.missing derived).Pairwise ReportedBefore) ∧
    ∀ (requested : Evidence) (calls : List String),
      (requested.isCoveredBy calls = true ↔
        ∀ kind, ∀ token ∈ requested.get kind, ∃ call ∈ calls, token ∈ kind.extract call) ∧
      (requested.isCoveredBy calls = true ↔ requested.missing (ofCalls calls) = []) ∧
      (requested.isCoveredBy calls = true → ∀ others, (∀ call ∈ calls, call ∈ others) →
        requested.isCoveredBy others = true) ∧
      (requested.isCoveredBy calls = true → ∀ part ≤ requested, part.isCoveredBy calls = true) ∧
      IsGreatest {part | part ≤ requested ∧ part.isCoveredBy calls = true}
        (requested.without (requested.missing (ofCalls calls))) := by
  refine ⟨ofCalls_append, fun _ _ => ofCalls_congr, ofCalls_eq_foldl, fun requested derived =>
    ⟨fun _ _ => mem_missing, nodup_missing requested derived, pairwise_missing requested derived⟩,
    fun requested calls => ⟨isCoveredBy_iff, ?_, ?_, ?_, ?_⟩⟩
  · rw [isCoveredBy_iff_le, missing_eq_nil_iff]
  · intro hcovered others hothers
    rw [isCoveredBy_iff_le] at hcovered ⊢
    exact hcovered.trans (ofCalls_mono hothers)
  · intro hcovered part hpart
    rw [isCoveredBy_iff_le] at hcovered ⊢
    exact hpart.trans hcovered
  · simp only [isCoveredBy_iff_le]
    exact isGreatest_without_missing requested (ofCalls calls)

end EvidenceSynthesis.Evidence
