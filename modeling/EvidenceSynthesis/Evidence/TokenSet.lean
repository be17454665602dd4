/-!
# Sets of tokens

A finite set of texts is the list of its members in strictly increasing order by code
point.  Two sets with the same members are therefore equal, and a set is written in
one way only.
-/

namespace EvidenceSynthesis

/-- A finite set of texts. -/
structure TokenSet where
  toList : List String
  sorted : toList.Pairwise (· < ·)
  deriving DecidableEq

namespace TokenSet

/-- Leaves one of each run of equal neighbours. -/
def mergeRuns : List String → List String
  | [] => []
  | [s] => [s]
  | s :: t :: rest => if s = t then mergeRuns (t :: rest) else s :: mergeRuns (t :: rest)

/-- Merging runs of equal tokens loses no token. -/
theorem mem_mergeRuns {s : String} {tokens : List String} :
    s ∈ mergeRuns tokens ↔ s ∈ tokens := by
  fun_induction mergeRuns tokens with
  | case1 => simp
  | case2 => simp
  | case3 rest t ih => simp [ih]
  | case4 a t rest h ih => simp [ih]

/-- Once their runs are merged, sorted tokens are strictly sorted. -/
theorem pairwise_mergeRuns {tokens : List String} (h : tokens.Pairwise (· ≤ ·)) :
    (mergeRuns tokens).Pairwise (· < ·) := by
  fun_induction mergeRuns tokens with
  | case1 => exact .nil
  | case2 => simp
  | case3 rest t ih => exact ih h.of_cons
  | case4 a t rest hne ih =>
    refine List.pairwise_cons.2 ⟨fun b hb => ?_, ih h.of_cons⟩
    rw [mem_mergeRuns] at hb
    have hat : a ≤ t := (List.pairwise_cons.1 h).1 t (by simp)
    have hab : a ≤ b := (List.pairwise_cons.1 h).1 b hb
    apply String.not_le.1
    intro hba
    have htb : t ≤ b := by
      rcases List.mem_cons.1 hb with rfl | hb'
      · exact String.le_total b b |>.elim id id
      · exact (List.pairwise_cons.1 h.of_cons).1 b hb'
    exact hne (String.le_antisymm hat (String.le_trans htb hba))

/-- The order by code point as a test. -/
def precedes (s t : String) : Bool :=
  decide (s ≤ t)

/-- Sorting by `precedes` sorts by the order of texts. -/
theorem pairwise_mergeSort_precedes (tokens : List String) :
    (tokens.mergeSort precedes).Pairwise (· ≤ ·) := by
  have h := @List.pairwise_mergeSort String precedes
    (fun a b c hab hbc => by
      simp only [precedes, decide_eq_true_eq] at *
      exact String.le_trans hab hbc)
    (fun a b => by simpa [precedes] using String.le_total a b) tokens
  exact h.imp fun hab => by simpa [precedes] using hab

/-- The set of the texts in a list. -/
def ofList (tokens : List String) : TokenSet :=
  ⟨mergeRuns (tokens.mergeSort precedes), pairwise_mergeRuns (pairwise_mergeSort_precedes tokens)⟩

/-- The set without members. -/
def empty : TokenSet := ⟨[], .nil⟩

instance : EmptyCollection TokenSet := ⟨empty⟩

instance : Inhabited TokenSet := ⟨empty⟩

instance : Membership String TokenSet := ⟨fun set token => token ∈ set.toList⟩

instance (token : String) (set : TokenSet) : Decidable (token ∈ set) :=
  inferInstanceAs (Decidable (token ∈ set.toList))

theorem mem_toList {token : String} {set : TokenSet} : token ∈ set.toList ↔ token ∈ set := Iff.rfl

/-- A set made of a list has the list's tokens. -/
@[simp] theorem mem_ofList {token : String} {tokens : List String} :
    token ∈ ofList tokens ↔ token ∈ tokens := by
  rw [← mem_toList, ofList, mem_mergeRuns, List.mem_mergeSort]

@[simp] theorem not_mem_empty (token : String) : token ∉ (∅ : TokenSet) := List.not_mem_nil

/-- Sets with the same members are equal. -/
theorem ext {a b : TokenSet} (h : ∀ token, token ∈ a ↔ token ∈ b) : a = b := by
  obtain ⟨xs, hx⟩ := a
  obtain ⟨ys, hy⟩ := b
  have nodup {l : List String} (hl : l.Pairwise (· < ·)) : l.Nodup :=
    List.Pairwise.imp (fun {c d} (hcd : c < d) (h : c = d) => String.lt_irrefl d (h ▸ hcd)) hl
  have perm : xs.Perm ys := (List.perm_ext_iff_of_nodup (nodup hx) (nodup hy)).2 h
  have equal : xs = ys := perm.eq_of_pairwise
    (fun c d _ _ hcd hdc => absurd (String.lt_trans hcd hdc) (String.lt_irrefl c)) hx hy
  subst equal
  rfl

/-- The set of texts depends on the texts alone, not on how they are listed. -/
theorem ofList_congr {tokens others : List String}
    (h : ∀ token, token ∈ tokens ↔ token ∈ others) : ofList tokens = ofList others := by
  refine ext fun token => ?_
  rw [mem_ofList, mem_ofList, h]

/-- The number of members. -/
def size (set : TokenSet) : Nat :=
  set.toList.length

/-- Whether there is no member. -/
def isEmpty (set : TokenSet) : Bool :=
  set.toList.isEmpty

/-- Whether a text is a member. -/
def contains (set : TokenSet) (token : String) : Bool :=
  set.toList.contains token

/-- The members of either set. -/
def union (a b : TokenSet) : TokenSet :=
  ofList (a.toList ++ b.toList)

/-- The members that pass a test. -/
def filter (keep : String → Bool) (set : TokenSet) : TokenSet :=
  ⟨set.toList.filter keep, set.sorted.filter keep⟩

/-- The members of the first set that are not in the second. -/
def diff (a b : TokenSet) : TokenSet :=
  a.filter fun token => !b.contains token

/-- Whether every member of the first set is in the second. -/
def isSubset (a b : TokenSet) : Bool :=
  a.toList.all b.contains

@[simp] theorem contains_iff {set : TokenSet} {token : String} :
    set.contains token = true ↔ token ∈ set := by
  simp [contains, ← mem_toList]

/-- A union has the tokens of either set. -/
@[simp] theorem mem_union {a b : TokenSet} {token : String} :
    token ∈ a.union b ↔ token ∈ a ∨ token ∈ b := by
  simp [union, mem_toList]

@[simp] theorem mem_filter {keep : String → Bool} {set : TokenSet} {token : String} :
    token ∈ set.filter keep ↔ token ∈ set ∧ keep token = true := by
  simp [filter, ← mem_toList]

/-- A difference has the tokens of the first set alone. -/
@[simp] theorem mem_diff {a b : TokenSet} {token : String} :
    token ∈ a.diff b ↔ token ∈ a ∧ token ∉ b := by
  rw [diff, mem_filter, Bool.not_eq_true', ← Bool.not_eq_true, contains_iff]

@[simp] theorem isSubset_iff {a b : TokenSet} :
    a.isSubset b = true ↔ ∀ token ∈ a, token ∈ b := by
  simp [isSubset, mem_toList]

end TokenSet

end EvidenceSynthesis
