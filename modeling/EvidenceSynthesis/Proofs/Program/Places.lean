import EvidenceSynthesis.Proofs.Program.Walks
import Mathlib.Data.List.Infix
import Mathlib.Order.Bounds.Basic

/-!
# What a walk through a tree meets, and where

A place is told by the way that leads to it from the root: at each step, the number of an item or of
a member.  In the order of lists a place comes before what is behind it in the document.

A walk through the values gathers the calls, and another one counts nodes within each other.  Both
are described by the places alone, without the walk: the calls are what stands at the places that
hold one (`HoldsCall`), in the order of the places, and the depth is the greatest number of nodes on
the way to a place (`nodesAlong`).  `Tree.walks_by_places` says so, and that equal trees have the
same calls up to order and the same depth.
-/

namespace EvidenceSynthesis

namespace Json.Value

/-- The values that stand directly in a value, in the order of the document. -/
def children : Value → List Value
  | array items => items
  | object members => members.map (·.2)
  | _ => []

/-- The value at a place, if there is such a place. -/
def valueAt? (value : Value) : List Nat → Option Value
  | [] => some value
  | i :: place => value.children[i]?.bind fun child => child.valueAt? place

theorem valueAt?_nil (value : Value) : value.valueAt? [] = some value := rfl

theorem valueAt?_cons (value : Value) (i : Nat) (place : List Nat) :
    value.valueAt? (i :: place) = value.children[i]?.bind fun child => child.valueAt? place := rfl

/-- A property holds of all values if a value inherits it from those that stand directly in it. -/
theorem induct_children {P : Value → Prop}
    (h : ∀ value : Value, (∀ child ∈ value.children, P child) → P value) (value : Value) :
    P value := by
  induction value using induct with
  | null | bool | integer | float | string => exact h _ (by simp [children])
  | array items ih => exact h _ ih
  | object members ih => exact h _ (List.forall_mem_map.2 ih)

end Json.Value

namespace Tree

open Json (Value Members)
open Json.Value (Equal)

/-! ### Texts at places -/

/-- Whether texts are those that stand at places, in the order of the places. -/
def AreGathered (Holds : List Nat → String → Prop) (texts : List String) : Prop :=
  ∃ places : List (List Nat), places.Pairwise (· < ·) ∧
    (∀ place, place ∈ places ↔ ∃ text, Holds place text) ∧ List.Forall₂ Holds places texts

theorem areGathered_nil {Holds : List Nat → String → Prop} (h : ∀ place text, ¬ Holds place text) :
    AreGathered Holds [] := by
  refine ⟨[], .nil, fun place => ?_, .nil⟩
  simp [h]

theorem areGathered_of_root {Holds : List Nat → String → Prop} {text : String}
    (h : ∀ place found, Holds place found ↔ place = [] ∧ found = text) :
    AreGathered Holds [text] := by
  refine ⟨[[]], List.pairwise_singleton .., fun place => ?_, .cons ((h ..).2 ⟨rfl, rfl⟩) .nil⟩
  simp [h]

/-- What stands in a list of parts, each of which holds texts at its own places. -/
def HoldsWithin {α : Type} (Holds : α → List Nat → String → Prop) (parts : List α)
    (place : List Nat) (text : String) : Prop :=
  ∃ i part rest, place = i :: rest ∧ parts[i]? = some part ∧ Holds part rest text

/-- Texts that are gathered from each part are gathered from the list of parts. -/
theorem areGathered_flatMap {α : Type} {Holds : α → List Nat → String → Prop}
    {gather : α → List String} {parts : List α}
    (h : ∀ part ∈ parts, AreGathered (Holds part) (gather part)) :
    AreGathered (HoldsWithin Holds parts) (parts.flatMap gather) := by
  induction parts using List.reverseRecOn with
  | nil =>
    refine areGathered_nil fun place text => ?_
    simp [HoldsWithin]
  | append_singleton before last ih =>
    obtain ⟨places, hsorted, hplaces, hholds⟩ :=
      ih fun part hpart => h part (List.mem_append_left _ hpart)
    obtain ⟨lastPlaces, hlastSorted, hlastPlaces, hlastHolds⟩ := h last (by simp)
    have hlast : (before ++ [last])[before.length]? = some last := by simp
    have hbefore : ∀ {place text}, HoldsWithin Holds before place text →
        HoldsWithin Holds (before ++ [last]) place text := by
      rintro place text ⟨i, part, rest, rfl, hpart, htext⟩
      have hi : i < before.length := (List.getElem?_eq_some_iff.1 hpart).1
      exact ⟨i, part, rest, rfl, by rw [List.getElem?_append_left hi, hpart], htext⟩
    refine ⟨places ++ lastPlaces.map (before.length :: ·), ?_, fun place => ?_, ?_⟩
    · refine List.pairwise_append.2 ⟨hsorted, ?_, ?_⟩
      · refine List.pairwise_map.2 (hlastSorted.imp fun hlt => ?_)
        exact List.cons_lt_cons_iff.2 (Or.inr ⟨rfl, hlt⟩)
      · intro place hplace other hother
        obtain ⟨text, i, part, rest, rfl, hpart, -⟩ := (hplaces place).1 hplace
        obtain ⟨lastRest, -, rfl⟩ := List.mem_map.1 hother
        exact List.cons_lt_cons_iff.2 (Or.inl (List.getElem?_eq_some_iff.1 hpart).1)
    · rw [List.mem_append, hplaces, List.mem_map]
      constructor
      · rintro (⟨text, htext⟩ | ⟨rest, hrest, rfl⟩)
        · exact ⟨text, hbefore htext⟩
        · obtain ⟨text, htext⟩ := (hlastPlaces rest).1 hrest
          exact ⟨text, _, last, rest, rfl, hlast, htext⟩
      · rintro ⟨text, i, part, rest, rfl, hpart, htext⟩
        by_cases hi : i < before.length
        · rw [List.getElem?_append_left hi] at hpart
          exact Or.inl ⟨text, i, part, rest, rfl, hpart, htext⟩
        · have hend := (List.getElem?_eq_some_iff.1 hpart).1
          rw [List.length_append, List.length_singleton] at hend
          obtain rfl : i = before.length := by omega
          obtain rfl : last = part := Option.some.inj (hlast.symm.trans hpart)
          exact Or.inr ⟨rest, (hlastPlaces rest).2 ⟨text, htext⟩, rfl⟩
    · rw [List.flatMap_append, List.flatMap_singleton]
      refine List.rel_append (hholds.imp fun _ _ => hbefore) ?_
      refine List.forall₂_map_left_iff.2 (hlastHolds.imp fun rest text htext => ?_)
      exact ⟨_, last, rest, rfl, hlast, htext⟩

/-! ### Calls -/

/-- Whether a call stands at a place: as the string that an object there has under the name of
calls. -/
def HoldsCall (value : Value) (place : List Nat) (signature : String) : Prop :=
  ∃ above i members, place = above ++ [i] ∧ value.valueAt? above = some (.object members) ∧
    members[i]? = some (callKey, .string signature)

/-- Whether a call stands at a place of a value that itself stands under a name. -/
def HoldsCallUnder (key : String) (value : Value) (place : List Nat) (signature : String) : Prop :=
  place = [] ∧ key = callKey ∧ value = .string signature ∨ HoldsCall value place signature

theorem holdsCallUnder_empty {value : Value} :
    HoldsCallUnder "" value = HoldsCall value := by
  have hkey : "" ≠ callKey := by decide
  funext place signature
  simp [HoldsCallUnder, hkey]

theorem holdsCallUnder_of_ne {key : String} {value : Value} (h : ∀ s, value ≠ .string s) :
    HoldsCallUnder key value = HoldsCall value := by
  funext place signature
  simp [HoldsCallUnder, h]

/-- A value without children holds no call. -/
theorem not_holdsCall_of_children_eq_nil {value : Value} (hchildren : value.children = [])
    (place : List Nat) (signature : String) : ¬ HoldsCall value place signature := by
  rintro ⟨above, i, members, rfl, habove, hmember⟩
  cases above with
  | nil =>
    rw [Value.valueAt?, Option.some.injEq] at habove
    rw [habove, Value.children, List.map_eq_nil_iff] at hchildren
    simp [hchildren] at hmember
  | cons j above => simp [Value.valueAt?_cons, hchildren] at habove

/-- The calls of an array are those of its items. -/
theorem holdsCall_array {items : List Value} :
    HoldsCall (.array items) = HoldsWithin (HoldsCallUnder "") items := by
  have hitems : (HoldsCallUnder "" : Value → _) = HoldsCall := funext fun _ => holdsCallUnder_empty
  rw [hitems]
  funext place signature
  rw [eq_iff_iff]
  constructor
  · rintro ⟨above, i, members, rfl, habove, hmember⟩
    cases above with
    | nil => simp [Value.valueAt?] at habove
    | cons j above =>
      obtain ⟨item, hitem, hplace⟩ := Option.bind_eq_some_iff.1 habove
      exact ⟨j, item, above ++ [i], rfl, hitem, above, i, members, rfl, hplace, hmember⟩
  · rintro ⟨j, item, _, rfl, hitem, above, i, members, rfl, habove, hmember⟩
    exact ⟨j :: above, i, members, rfl, Option.bind_eq_some_iff.2 ⟨item, hitem, habove⟩, hmember⟩

/-- The calls of an object are its members of that name and those within the values of members. -/
theorem holdsCall_object {members : Members} :
    HoldsCall (.object members) =
      HoldsWithin (fun member => HoldsCallUnder member.1 member.2) members := by
  funext place signature
  rw [eq_iff_iff]
  constructor
  · rintro ⟨above, i, found, rfl, habove, hmember⟩
    cases above with
    | nil =>
      rw [Value.valueAt?, Option.some.injEq, Value.object.injEq] at habove
      subst habove
      exact ⟨i, _, [], rfl, hmember, Or.inl ⟨rfl, rfl, rfl⟩⟩
    | cons j above =>
      obtain ⟨child, hchild, hplace⟩ := Option.bind_eq_some_iff.1 habove
      rw [Value.children, List.getElem?_map, Option.map_eq_some_iff] at hchild
      obtain ⟨member, hj, rfl⟩ := hchild
      exact ⟨j, member, above ++ [i], rfl, hj,
        Or.inr ⟨above, i, found, rfl, hplace, hmember⟩⟩
  · rintro ⟨j, ⟨name, value⟩, rest, rfl, hj,
      ⟨rfl, rfl, rfl⟩ | ⟨above, i, found, rfl, habove, hmember⟩⟩
    · exact ⟨[], j, members, rfl, rfl, hj⟩
    · refine ⟨j :: above, i, found, rfl, Option.bind_eq_some_iff.2 ⟨value, ?_, habove⟩, hmember⟩
      rw [Value.children, List.getElem?_map, hj]
      rfl

/-- A value without parts holds no call unless it is one itself. -/
theorem areGathered_of_children_eq_nil {key : String} {value : Value}
    (hchildren : value.children = [])
    (hcall : ∀ signature, ¬ (key = callKey ∧ value = .string signature)) :
    AreGathered (HoldsCallUnder key value) [] := by
  refine areGathered_nil fun place signature => ?_
  rintro (⟨-, hsignature⟩ | hholds)
  · exact hcall signature hsignature
  · exact not_holdsCall_of_children_eq_nil hchildren place signature hholds

/-- A walk gathers the calls of a value in the order of their places. -/
theorem areGathered_callsUnder (key : String) (value : Value) :
    AreGathered (HoldsCallUnder key value) (callsUnder key value) := by
  induction value using Value.induct generalizing key with
  | null => exact areGathered_of_children_eq_nil rfl (by simp)
  | bool b => exact areGathered_of_children_eq_nil rfl (by simp)
  | integer n => exact areGathered_of_children_eq_nil rfl (by simp)
  | float x => exact areGathered_of_children_eq_nil rfl (by simp)
  | string s =>
    by_cases hkey : key = callKey
    · rw [callsUnder, if_pos hkey]
      refine areGathered_of_root fun place signature => ?_
      have hwithin : ¬ HoldsCall (.string s) place signature :=
        not_holdsCall_of_children_eq_nil rfl place signature
      simp [HoldsCallUnder, hkey, hwithin, eq_comm]
    · rw [callsUnder, if_neg hkey]
      exact areGathered_of_children_eq_nil rfl (by simp [hkey])
  | array items ih =>
    rw [holdsCallUnder_of_ne (by simp), holdsCall_array, callsUnder, callsOfItems_eq_flatMap]
    exact areGathered_flatMap fun item hitem => ih item hitem ""
  | object members ih =>
    rw [holdsCallUnder_of_ne (by simp), holdsCall_object, callsUnder, callsOfMembers_eq_flatMap]
    exact areGathered_flatMap fun member hmember => ih member hmember member.1

/-! ### Depth -/

/-- Whether a value is a node: an object with a member of that name. -/
def isNode : Value → Bool
  | .object members => Members.has members nodeKey
  | _ => false

/-- The number of nodes on the way to a place, the value at the place included. -/
def nodesAlong (value : Value) (place : List Nat) : Nat :=
  place.inits.countP fun above => (value.valueAt? above).any isNode

theorem nodesAlong_nil (value : Value) : nodesAlong value [] = (isNode value).toNat := by
  cases h : isNode value <;> simp [nodesAlong, Value.valueAt?_nil, h]

/-- The nodes along a path are the first and those along the rest. -/
theorem nodesAlong_cons {value child : Value} {i : Nat} (hchild : value.children[i]? = some child)
    (place : List Nat) :
    nodesAlong value (i :: place) = (isNode value).toNat + nodesAlong child place := by
  have hbelow : ∀ above, value.valueAt? (i :: above) = child.valueAt? above := by
    intro above
    rw [Value.valueAt?_cons, hchild, Option.bind_some]
  have htail : (place.inits.map (i :: ·)).countP (fun above => (value.valueAt? above).any isNode) =
      nodesAlong child place := by
    rw [List.countP_map]
    simp only [Function.comp_def, hbelow]
    rfl
  rw [nodesAlong, List.inits_cons, List.countP_cons, htail, Nat.add_comm, ← nodesAlong_nil]
  simp [nodesAlong]

theorem depthOfMembers_eq (members : Members) :
    depthOfMembers members = depthOfItems (members.map (·.2)) := by
  induction members with
  | nil => rfl
  | cons member rest ih => rw [depthOfMembers, ih, List.map_cons, depthOfItems]

/-- A value counts if it is a node, and is as deep below as the values that stand in it. -/
theorem depthOfValue_eq (value : Value) :
    depthOfValue value = (isNode value).toNat + depthOfItems value.children := by
  cases value with
  | null | bool | integer | float | string => rfl
  | array items => simp [depthOfValue, isNode, Value.children]
  | object members =>
    rw [depthOfValue, isNode, Value.children, depthOfMembers_eq]
    cases Members.has members nodeKey <;> rfl

/-- The greatest depth is that of an item. -/
theorem exists_mem_depthOfItems {items : List Value} (h : items ≠ []) :
    ∃ item ∈ items, depthOfValue item = depthOfItems items := by
  induction items with
  | nil => exact absurd rfl h
  | cons item rest ih =>
    rw [depthOfItems]
    rcases Nat.le_total (depthOfItems rest) (depthOfValue item) with hle | hle
    · exact ⟨item, List.mem_cons_self, (Nat.max_eq_left hle).symm⟩
    · rw [Nat.max_eq_right hle]
      cases rest with
      | nil => exact ⟨item, List.mem_cons_self, Nat.le_zero.1 hle⟩
      | cons other rest =>
        obtain ⟨found, hfound, hdepth⟩ := ih (List.cons_ne_nil other rest)
        exact ⟨found, List.mem_cons_of_mem item hfound, hdepth⟩

/-- No way to a place meets more nodes than the value is deep. -/
theorem nodesAlong_le {value found : Value} {place : List Nat}
    (h : value.valueAt? place = some found) : nodesAlong value place ≤ depthOfValue value := by
  induction place generalizing value with
  | nil =>
    rw [nodesAlong_nil, depthOfValue_eq]
    exact Nat.le_add_right ..
  | cons i place ih =>
    obtain ⟨child, hchild, hplace⟩ := Option.bind_eq_some_iff.1 h
    have hitem : depthOfValue child ≤ depthOfItems value.children :=
      depthOfItems_le_iff.1 (Nat.le_refl _) child (List.mem_of_getElem? hchild)
    rw [nodesAlong_cons hchild, depthOfValue_eq value]
    exact Nat.add_le_add_left (Nat.le_trans (ih hplace) hitem) _

/-- Some way to a place meets as many nodes as the value is deep. -/
theorem exists_nodesAlong_eq (value : Value) :
    ∃ place, (value.valueAt? place).isSome = true ∧
      nodesAlong value place = depthOfValue value := by
  induction value using Value.induct_children with
  | h value ih =>
    by_cases hchildren : value.children = []
    · refine ⟨[], rfl, ?_⟩
      rw [nodesAlong_nil, depthOfValue_eq, hchildren, depthOfItems, Nat.add_zero]
    · obtain ⟨child, hmem, hdepth⟩ := exists_mem_depthOfItems hchildren
      obtain ⟨place, hplace, hnodes⟩ := ih child hmem
      obtain ⟨i, hi⟩ := List.getElem?_of_mem hmem
      refine ⟨i :: place, ?_, ?_⟩
      · rw [Value.valueAt?_cons, hi, Option.bind_some, hplace]
      · rw [nodesAlong_cons hi, hnodes, hdepth, ← depthOfValue_eq]

/-! ### Trees -/

/-- What the walks through a tree find, and what they find in equal trees.

The calls are those that stand directly under their name in an object at any depth, in the order of
the document.  The depth is the greatest number of nodes on the way from the root to a place.  A
tree that is equal up to the order of members and the sign of zero has the same calls, up to order,
and the same depth. -/
theorem walks_by_places (tree : Tree) :
    (∃ places : List (List Nat), places.Pairwise (· < ·) ∧
      (∀ place, place ∈ places ↔ ∃ signature, HoldsCall tree.toValue place signature) ∧
      List.Forall₂ (HoldsCall tree.toValue) places tree.calls) ∧
    IsGreatest
      {n | ∃ place, (tree.toValue.valueAt? place).isSome = true ∧ nodesAlong tree.toValue place = n}
      tree.depth ∧
    ∀ other : Tree, Equal tree.toValue other.toValue →
      tree.calls.Perm other.calls ∧ tree.depth = other.depth := by
  refine ⟨?_, ⟨exists_nodesAlong_eq tree.toValue, ?_⟩, fun other hequal => ?_⟩
  · have hgathered := areGathered_callsUnder "" tree.toValue
    rwa [holdsCallUnder_empty] at hgathered
  · rintro n ⟨place, hplace, rfl⟩
    obtain ⟨found, hfound⟩ := Option.isSome_iff_exists.1 hplace
    exact nodesAlong_le hfound
  · have hsame := same_iff_equal.2 hequal
    exact ⟨perm_calls_of_same hsame, depth_eq_of_same hsame⟩

/-- A loop whose condition and body are a call each. -/
def loop : Tree where
  members :=
    [(nodeKey, .string "DLoop"),
     ("_cond", .array [.object [(nodeKey, .string "DAPICall"), (callKey, .string "a.B.c()")]]),
     ("_body", .array [.object [(nodeKey, .string "DAPICall"), (callKey, .string "d.E.f()")]]),
     ("weight", .float ⟨false, 0, -1074, by decide⟩)]
  distinct := by
    simp [Value.HasDistinctNames, Members.names, Value.MembersHaveDistinctNames,
      Value.ItemsHaveDistinctNames, nodeKey, callKey]

/-- The same loop with the members the other way round and the other zero. -/
def turnedLoop : Tree where
  members :=
    [("weight", .float ⟨true, 0, -1074, by decide⟩),
     ("_body", .array [.object [(callKey, .string "d.E.f()"), (nodeKey, .string "DAPICall")]]),
     ("_cond", .array [.object [(callKey, .string "a.B.c()"), (nodeKey, .string "DAPICall")]]),
     (nodeKey, .string "DLoop")]
  distinct := by
    simp [Value.HasDistinctNames, Members.names, Value.MembersHaveDistinctNames,
      Value.ItemsHaveDistinctNames, nodeKey, callKey]

/-- The two loops are equal; their calls come in different orders. -/
theorem walks_by_places_turned :
    Equal loop.toValue turnedLoop.toValue ∧
      loop.calls = ["a.B.c()", "d.E.f()"] ∧ turnedLoop.calls = ["d.E.f()", "a.B.c()"] ∧
      loop.calls.Perm turnedLoop.calls ∧ loop.depth = 2 ∧ loop.depth = turnedLoop.depth := by
  have hequal : Equal loop.toValue turnedLoop.toValue := same_iff_equal.1 (by decide)
  obtain ⟨hperm, hdepth⟩ := (walks_by_places loop).2.2 turnedLoop hequal
  exact ⟨hequal, by decide, by decide, hperm, by decide, hdepth⟩

end Tree

end EvidenceSynthesis
