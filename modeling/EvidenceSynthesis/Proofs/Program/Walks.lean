import EvidenceSynthesis.Proofs.Json.Sameness
import Mathlib.Data.List.Forall2
import Mathlib.Data.List.Perm.Basic

/-!
# What equal trees have in common

The calls of a tree and its depth are found by walking through its values.  A walk meets the
members of an object in their order, in which equal trees may differ: their calls are the same up to
order (`Tree.perm_calls_of_same`), and their depths are the same (`Tree.depth_eq_of_same`).

Where names are distinct, what is gathered from the members of an object is gathered from its names
by looking them up, and equal objects have the same names and equal values under them.
-/

namespace EvidenceSynthesis

/-- What is found by one look-up has a counterpart in another that fails where it fails. -/
theorem exists_eq_some_of_none_iff {α β : Type} {found : Option α} {other : Option β}
    (h : found = none ↔ other = none) {a : α} (ha : found = some a) : ∃ b, other = some b := by
  refine Option.ne_none_iff_exists'.1 fun hnone => ?_
  rw [h.2 hnone] at ha
  cases ha

/-- Lists that end at the same place are related if the items at each place are. -/
theorem forall₂_of_getElem? {α β : Type} {R : α → β → Prop} {items : List α} {others : List β}
    (hnone : ∀ i : Nat, items[i]? = none ↔ others[i]? = none)
    (h : ∀ (i : Nat) a b, items[i]? = some a → others[i]? = some b → R a b) :
    List.Forall₂ R items others := by
  refine List.forall₂_iff_get.2 ⟨?_, ?_⟩
  · have hitems := hnone items.length
    have hothers := hnone others.length
    simp only [List.getElem?_eq_none_iff] at hitems hothers
    omega
  · intro i hi hj
    exact h i _ _ (List.getElem?_eq_getElem hi) (List.getElem?_eq_getElem hj)

namespace Json.Members

/-- Objects in which the same names are found have the same names. -/
theorem perm_names {members others : Members} (hmembers : (names members).Nodup)
    (hothers : (names others).Nodup)
    (h : ∀ name, get? name members = none ↔ get? name others = none) :
    (names members).Perm (names others) := by
  refine (List.perm_ext_iff_of_nodup hmembers hothers).2 fun name => ?_
  rw [← not_iff_not, ← get?_eq_none_iff, ← get?_eq_none_iff]
  exact h name

/-- Where names are distinct, what is gathered from the members is gathered by looking up the
names. -/
theorem flatMap_eq_flatMap_names {α : Type} (f : String → Value → List α) {members : Members}
    (hnames : (names members).Nodup) :
    (members.flatMap fun member => f member.1 member.2) =
      (names members).flatMap fun name => ((get? name members).map (f name)).getD [] := by
  rw [names, List.flatMap_map]
  refine List.flatMap_congr fun member hmember => ?_
  rw [get?_of_mem hnames hmember]
  rfl

theorem has_iff {members : Members} {name : String} :
    members.has name = true ↔ get? name members ≠ none := by
  rw [ne_eq, get?_eq_none_iff, not_not]
  simp [has, names]

end Json.Members

namespace Tree

open Json (Value Members)
open Json.Value (Equal)

/-! ### Calls -/

theorem callsOfItems_eq_flatMap (items : List Value) :
    callsOfItems items = items.flatMap (callsUnder "") := by
  induction items with
  | nil => rfl
  | cons item rest ih => rw [callsOfItems, ih, List.flatMap_cons]

/-- The calls of members are those of each under its name, in order. -/
theorem callsOfMembers_eq_flatMap (members : Members) :
    callsOfMembers members = members.flatMap fun member => callsUnder member.1 member.2 := by
  induction members with
  | nil => rfl
  | cons member rest ih => rw [callsOfMembers, ih, List.flatMap_cons]

/-- Equal values that stand under the same name hold the same calls, up to order. -/
theorem perm_callsUnder {a b : Value} (h : Equal a b) (ha : a.HasDistinctNames)
    (hb : b.HasDistinctNames) (key : String) : (callsUnder key a).Perm (callsUnder key b) := by
  induction h generalizing key with
  | null => exact .refl _
  | bool b => exact .refl _
  | integer n => exact .refl _
  | float hxy => exact .refl _
  | string s => exact .refl _
  | @array items others hnone _ ih =>
    rw [Value.HasDistinctNames, Value.itemsHaveDistinctNames_iff] at ha hb
    have hitems :
        List.Forall₂ (fun a b => (callsUnder "" a).Perm (callsUnder "" b)) items others := by
      refine forall₂_of_getElem? hnone fun i a b hi hj => ?_
      exact ih i a b hi hj (ha a (List.mem_of_getElem? hi)) (hb b (List.mem_of_getElem? hj)) ""
    rw [callsUnder, callsUnder, callsOfItems_eq_flatMap, callsOfItems_eq_flatMap]
    refine List.Perm.flatten_congr ?_
    rwa [List.forall₂_map_left_iff, List.forall₂_map_right_iff]
  | @object members others hnone _ ih =>
    rw [Value.HasDistinctNames, Value.membersHaveDistinctNames_iff] at ha hb
    rw [callsUnder, callsUnder, callsOfMembers_eq_flatMap, callsOfMembers_eq_flatMap,
      Members.flatMap_eq_flatMap_names callsUnder ha.1,
      Members.flatMap_eq_flatMap_names callsUnder hb.1]
    refine (Members.perm_names ha.1 hb.1 hnone).flatMap fun name _ => ?_
    cases hmember : Members.get? name members with
    | none => rw [(hnone name).1 hmember]
    | some a =>
      obtain ⟨b, hother⟩ := exists_eq_some_of_none_iff (hnone name) hmember
      rw [hother]
      exact ih name a b hmember hother (ha.2 _ (Members.mem_of_get? hmember))
        (hb.2 _ (Members.mem_of_get? hother)) name

/-! ### Depth -/

theorem depthOfItems_le_iff {items : List Value} {n : Nat} :
    depthOfItems items ≤ n ↔ ∀ item ∈ items, depthOfValue item ≤ n := by
  induction items with
  | nil => simp [depthOfItems]
  | cons item rest ih => rw [depthOfItems, Nat.max_le, ih, List.forall_mem_cons]

theorem depthOfMembers_le_iff {members : Members} {n : Nat} :
    depthOfMembers members ≤ n ↔ ∀ member ∈ members, depthOfValue member.2 ≤ n := by
  induction members with
  | nil => simp [depthOfMembers]
  | cons member rest ih => rw [depthOfMembers, Nat.max_le, ih, List.forall_mem_cons]

/-- A value is no deeper than a value that it equals. -/
theorem depthOfValue_le {a b : Value} (h : Equal a b) (ha : a.HasDistinctNames)
    (hb : b.HasDistinctNames) : depthOfValue a ≤ depthOfValue b := by
  induction h with
  | null => exact Nat.le_refl _
  | bool b => exact Nat.le_refl _
  | integer n => exact Nat.le_refl _
  | float hxy => exact Nat.le_refl _
  | string s => exact Nat.le_refl _
  | @array items others hnone _ ih =>
    rw [Value.HasDistinctNames, Value.itemsHaveDistinctNames_iff] at ha hb
    rw [depthOfValue, depthOfValue]
    refine depthOfItems_le_iff.2 fun a hmem => ?_
    obtain ⟨i, hi⟩ := List.getElem?_of_mem hmem
    obtain ⟨b, hj⟩ := exists_eq_some_of_none_iff (hnone i) hi
    have hother := List.mem_of_getElem? hj
    calc depthOfValue a ≤ depthOfValue b := ih i a b hi hj (ha a hmem) (hb b hother)
      _ ≤ depthOfItems others := depthOfItems_le_iff.1 (Nat.le_refl _) b hother
  | @object members others hnone _ ih =>
    rw [Value.HasDistinctNames, Value.membersHaveDistinctNames_iff] at ha hb
    have hnode : Members.has members nodeKey = Members.has others nodeKey := by
      rw [Bool.eq_iff_iff, Members.has_iff, Members.has_iff, ne_eq, ne_eq, hnone]
    rw [depthOfValue, depthOfValue, hnode]
    refine Nat.add_le_add_left (depthOfMembers_le_iff.2 fun member hmem => ?_) _
    have hmember := Members.get?_of_mem ha.1 hmem
    obtain ⟨b, hother⟩ := exists_eq_some_of_none_iff (hnone member.1) hmember
    have hfound := Members.mem_of_get? hother
    calc depthOfValue member.2 ≤ depthOfValue b :=
          ih member.1 member.2 b hmember hother (ha.2 _ hmem) (hb.2 _ hfound)
      _ ≤ depthOfMembers others := depthOfMembers_le_iff.1 (Nat.le_refl _) _ hfound

/-! ### Trees -/

variable {a b : Tree}

/-- Trees compare as the same exactly if they are equal as values. -/
theorem same_iff_equal : a.same b = true ↔ Equal a.toValue b.toValue :=
  Value.same_iff_equal a.distinct b.distinct

/-- Equal trees have the same calls, up to order. -/
theorem perm_calls_of_same (h : a.same b = true) : a.calls.Perm b.calls :=
  perm_callsUnder (same_iff_equal.1 h) a.distinct b.distinct ""

/-- Equal trees have the same depth. -/
theorem depth_eq_of_same (h : a.same b = true) : a.depth = b.depth := by
  have hequal := same_iff_equal.1 h
  exact Nat.le_antisymm (depthOfValue_le hequal a.distinct b.distinct)
    (depthOfValue_le hequal.symm b.distinct a.distinct)

/-! ### Trees of given calls -/

/-- The tree with a node for each call. -/
def calling (calls : List String) : Tree where
  members := [("_nodes", .array (calls.map fun call => .object [(callKey, .string call)]))]
  distinct := by
    refine ⟨by simp [Members.names], ?_, trivial⟩
    refine Value.itemsHaveDistinctNames_iff.2 fun item hitem => ?_
    obtain ⟨call, _, rfl⟩ := List.mem_map.1 hitem
    exact ⟨by simp [Members.names], trivial, trivial⟩

@[simp] theorem calls_calling (calls : List String) : (calling calls).calls = calls := by
  rw [Tree.calls, calling, callsOfMembers_eq_flatMap, List.flatMap_singleton, callsUnder,
    callsOfItems_eq_flatMap, List.flatMap_map]
  exact List.flatMap_singleton' calls

end Tree

end EvidenceSynthesis
