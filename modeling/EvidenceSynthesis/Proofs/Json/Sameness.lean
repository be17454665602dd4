import EvidenceSynthesis.Program.Candidate
import Mathlib.Data.List.Perm.Subperm

/-!
# Sameness as an equivalence

`Value.same` compares arrays place by place and objects by looking up the members of
the one among those of the other.  The second comparison only runs in one direction,
and it stops at the first member of a name, so it need not be symmetric unless names are
distinct.

`same_array_iff` and `same_object_iff` read a comparison as the agreement of two look-ups:
by place for arrays, by name for objects.  `Value.Equal` is the relation that these
suggest, and `same_iff_equal` says that the comparison decides it.  The relation is an
equivalence without any condition, and the order of members has no part in it; the
comparison of candidates inherits both.
-/

namespace EvidenceSynthesis

/-! ### Numbers -/

namespace Decimal.Binary64

/-- Two numbers have the same value if they are equal or both zero. -/
theorem sameValue_iff {x y : Binary64} :
    x.sameValue y = true ↔ x = y ∨ x.isZero = true ∧ y.isZero = true := by
  simp [sameValue]

end Decimal.Binary64

namespace Json

open EvidenceSynthesis.Decimal (Binary64)

/-! ### Induction over values -/

namespace Value

section Induction

variable {P : Value → Prop}
  (null : P null)
  (bool : ∀ b, P (bool b))
  (integer : ∀ n, P (integer n))
  (float : ∀ x, P (float x))
  (string : ∀ s, P (string s))
  (array : ∀ items, (∀ item ∈ items, P item) → P (array items))
  (object : ∀ members, (∀ member ∈ members, P member.2) → P (object members))

include null bool integer float string array object

/-- A property of values holds of all of them if an array inherits it from its items
and an object from the values of its members. -/
theorem induct : ∀ value, P value
  | .null => null
  | .bool b => bool b
  | .integer n => integer n
  | .float x => float x
  | .string s => string s
  | .array items => array items fun item _ => induct item
  | .object members => object members fun member _ => induct member.2
termination_by value => sizeOf value
decreasing_by
  · have := List.sizeOf_lt_of_mem ‹item ∈ items›
    simp only [Value.array.sizeOf_spec]
    omega
  · have := List.sizeOf_lt_of_mem ‹member ∈ members›
    have : sizeOf member.2 < sizeOf member := by
      obtain ⟨name, value⟩ := member
      simp only [Prod.mk.sizeOf_spec]
      omega
    simp only [Value.object.sizeOf_spec]
    omega

end Induction

/-! ### Values without parts -/

theorem same_null_iff {b : Value} : null.same b = true ↔ null = b := by
  cases b <;> simp [same]

theorem same_bool_iff {a : Bool} {b : Value} : (bool a).same b = true ↔ bool a = b := by
  cases b <;> simp [same]

/-- An integer is the same as itself only, and not as the binary64 number of its size. -/
theorem same_integer_iff {n : Int} {b : Value} : (integer n).same b = true ↔ integer n = b := by
  cases b <;> simp [same]

theorem same_string_iff {s : String} {b : Value} : (string s).same b = true ↔ string s = b := by
  cases b <;> simp [same]

/-- A binary64 number is the same as itself, and each zero as the other. -/
theorem same_float_iff {x : Binary64} {b : Value} :
    (float x).same b = true ↔ ∃ y, b = float y ∧ (x = y ∨ x.isZero = true ∧ y.isZero = true) := by
  cases b <;> simp [same, Binary64.sameValue_iff]

/-! ### Comparison as agreement of look-ups -/

/-- Two look-ups agree if both find nothing or both find values that are the same. -/
def Agree : Option Value → Option Value → Prop :=
  Option.Rel fun a b => a.same b = true

/-- What agrees with a value that was found is one that is the same. -/
theorem agree_some_iff {a : Value} {other : Option Value} :
    Agree (some a) other ↔ ∃ b, other = some b ∧ a.same b = true := by
  constructor
  · intro h
    cases h with
    | some hab => exact ⟨_, rfl, hab⟩
  · rintro ⟨b, rfl, hab⟩
    exact .some hab

/-- Two results are related if both are missing or both are there and related. -/
theorem rel_iff {α β : Type} {R : α → β → Prop} {found : Option α} {other : Option β} :
    Option.Rel R found other ↔
      (found = none ↔ other = none) ∧ ∀ a b, found = some a → other = some b → R a b := by
  constructor
  · intro h
    cases h with
    | none => exact ⟨iff_of_true rfl rfl, nofun⟩
    | some hab =>
      refine ⟨iff_of_false nofun nofun, ?_⟩
      rintro _ _ ⟨⟩ ⟨⟩
      exact hab
  · rintro ⟨hnone, hsome⟩
    cases found with
    | none =>
      rw [hnone.1 rfl]
      exact .none
    | some a =>
      cases other with
      | none => cases hnone.2 rfl
      | some b => exact .some (hsome a b rfl rfl)

/-- Findings agree if neither or both were found, and those are the same. -/
theorem agree_iff {found other : Option Value} :
    Agree found other ↔
      (found = none ↔ other = none) ∧
        ∀ a b, found = some a → other = some b → a.same b = true :=
  rel_iff

theorem eq_none_iff_of_agree {found other : Option Value} (h : Agree found other) :
    found = none ↔ other = none :=
  (agree_iff.1 h).1

/-- Items are the same exactly if they agree at every place. -/
theorem sameItems_iff {items others : List Value} :
    sameItems items others = true ↔ ∀ i : Nat, Agree items[i]? others[i]? := by
  induction items generalizing others with
  | nil =>
    cases others with
    | nil => exact iff_of_true rfl fun _ => .none
    | cons b others =>
      refine iff_of_false (by simp [sameItems]) fun h => ?_
      cases h 0
  | cons a items ih =>
    cases others with
    | nil =>
      refine iff_of_false (by simp [sameItems]) fun h => ?_
      cases h 0
    | cons b others =>
      rw [sameItems, Bool.and_eq_true, ih]
      constructor
      · rintro ⟨hab, hrest⟩ i
        cases i with
        | zero => exact .some hab
        | succ i => exact hrest i
      · intro h
        refine ⟨?_, fun i => h (i + 1)⟩
        cases h 0 with
        | some hab => exact hab

/-- Two arrays are the same if every place holds the same in both. -/
theorem same_array_iff {items others : List Value} :
    (array items).same (array others) = true ↔ ∀ i : Nat, Agree items[i]? others[i]? := by
  rw [same, sameItems_iff]

/-- The members of an object are the same as others if each is found among them. -/
theorem sameMembers_iff {members others : Members} :
    sameMembers members others = true ↔
      ∀ member ∈ members, ∃ other, Members.get? member.1 others = some other ∧
        member.2.same other = true := by
  induction members with
  | nil => simp [sameMembers]
  | cons member rest ih =>
    rw [sameMembers, Bool.and_eq_true, ih, List.forall_mem_cons]
    refine and_congr_left fun _ => ?_
    cases hother : Members.get? member.1 others <;> simp

/-- A list of distinct names that are all among equally many others has the same names
as those. -/
theorem names_perm {members others : Members} (hnames : (Members.names members).Nodup)
    (hlength : members.length = others.length)
    (hmem : ∀ name ∈ Members.names members, name ∈ Members.names others) :
    (Members.names members).Perm (Members.names others) := by
  have hsub : (Members.names members).Subperm (Members.names others) := hnames.subperm hmem
  refine hsub.perm_of_length_le ?_
  simp [Members.names, hlength]

/-- Two objects in which names are distinct are the same if every name leads to the same
in both. -/
theorem same_object_iff {members others : Members} (hmembers : (Members.names members).Nodup)
    (hothers : (Members.names others).Nodup) :
    (object members).same (object others) = true ↔
      ∀ name, Agree (Members.get? name members) (Members.get? name others) := by
  rw [same, Bool.and_eq_true, beq_iff_eq, sameMembers_iff]
  constructor
  · rintro ⟨hlength, hfound⟩ name
    have hmem : ∀ name ∈ Members.names members, name ∈ Members.names others := by
      intro name hname
      obtain ⟨member, hmember, rfl⟩ := List.mem_map.1 hname
      obtain ⟨other, hother, _⟩ := hfound member hmember
      exact List.mem_map.2 ⟨_, Members.mem_of_get? hother, rfl⟩
    have hperm := names_perm hmembers hlength hmem
    cases hvalue : Members.get? name members with
    | none =>
      have habsent : name ∉ Members.names others := fun hname =>
        Members.get?_eq_none_iff.1 hvalue (hperm.mem_iff.2 hname)
      rw [Members.get?_eq_none_iff.2 habsent]
      exact .none
    | some value =>
      obtain ⟨other, hother, hsame⟩ := hfound _ (Members.mem_of_get? hvalue)
      rw [hother]
      exact .some hsame
  · intro h
    have hmem : ∀ name, name ∈ Members.names members ↔ name ∈ Members.names others := by
      intro name
      rw [← not_iff_not, ← Members.get?_eq_none_iff, ← Members.get?_eq_none_iff]
      exact eq_none_iff_of_agree (h name)
    have hperm := (List.perm_ext_iff_of_nodup hmembers hothers).2 hmem
    refine ⟨by simpa [Members.names] using hperm.length_eq, ?_⟩
    intro member hmember
    have hagree := h member.1
    rw [Members.get?_of_mem hmembers hmember] at hagree
    exact agree_some_iff.1 hagree

/-! ### Equality as a relation -/

/-- Equality of values: integers and binary64 numbers are different kinds of values, the
two zeros are equal, arrays are compared by place and objects by name. -/
inductive Equal : Value → Value → Prop
  | null : Equal null null
  | bool (b : Bool) : Equal (bool b) (bool b)
  | integer (n : Int) : Equal (integer n) (integer n)
  | float {x y : Binary64} : x = y ∨ x.isZero = true ∧ y.isZero = true → Equal (float x) (float y)
  | string (s : String) : Equal (string s) (string s)
  | array {items others : List Value} :
      (∀ i : Nat, items[i]? = none ↔ others[i]? = none) →
      (∀ (i : Nat) a b, items[i]? = some a → others[i]? = some b → Equal a b) →
      Equal (array items) (array others)
  | object {members others : Members} :
      (∀ name, Members.get? name members = none ↔ Members.get? name others = none) →
      (∀ name a b, Members.get? name members = some a → Members.get? name others = some b →
        Equal a b) →
      Equal (object members) (object others)

/-- Values that compare as the same are equal, the order of members apart. -/
theorem equal_of_same {a b : Value} (ha : a.HasDistinctNames) (hb : b.HasDistinctNames)
    (h : a.same b = true) : Equal a b := by
  induction a using induct generalizing b with
  | null =>
    obtain rfl := same_null_iff.1 h
    exact .null
  | bool x =>
    obtain rfl := same_bool_iff.1 h
    exact .bool x
  | integer n =>
    obtain rfl := same_integer_iff.1 h
    exact .integer n
  | string s =>
    obtain rfl := same_string_iff.1 h
    exact .string s
  | float x =>
    obtain ⟨y, rfl, hxy⟩ := same_float_iff.1 h
    exact .float hxy
  | array items ih =>
    cases b with
    | array others =>
      rw [HasDistinctNames, itemsHaveDistinctNames_iff] at ha hb
      rw [same_array_iff] at h
      refine .array (fun i => eq_none_iff_of_agree (h i)) fun i a b hi hj => ?_
      have hmem := List.mem_of_getElem? hi
      exact ih a hmem (ha a hmem) (hb b (List.mem_of_getElem? hj)) ((agree_iff.1 (h i)).2 a b hi hj)
    | _ => simp [same] at h
  | object members ih =>
    cases b with
    | object others =>
      rw [HasDistinctNames, membersHaveDistinctNames_iff] at ha hb
      rw [same_object_iff ha.1 hb.1] at h
      refine .object (fun name => eq_none_iff_of_agree (h name)) fun name a b hi hj => ?_
      have hmem := Members.mem_of_get? hi
      exact ih _ hmem (ha.2 _ hmem) (hb.2 _ (Members.mem_of_get? hj))
        ((agree_iff.1 (h name)).2 a b hi hj)
    | _ => simp [same] at h

/-- Values that are equal, the order of members apart, compare as the same. -/
theorem same_of_equal {a b : Value} (ha : a.HasDistinctNames) (hb : b.HasDistinctNames)
    (h : Equal a b) : a.same b = true := by
  induction h with
  | null => exact same_null_iff.2 rfl
  | bool x => exact same_bool_iff.2 rfl
  | integer n => exact same_integer_iff.2 rfl
  | string s => exact same_string_iff.2 rfl
  | float hxy => exact same_float_iff.2 ⟨_, rfl, hxy⟩
  | array hnone _ ih =>
    rw [HasDistinctNames, itemsHaveDistinctNames_iff] at ha hb
    refine same_array_iff.2 fun i => agree_iff.2 ⟨hnone i, fun a b hi hj => ?_⟩
    exact ih i a b hi hj (ha a (List.mem_of_getElem? hi)) (hb b (List.mem_of_getElem? hj))
  | object hnone _ ih =>
    rw [HasDistinctNames, membersHaveDistinctNames_iff] at ha hb
    refine (same_object_iff ha.1 hb.1).2 fun name => agree_iff.2 ⟨hnone name, fun a b hi hj => ?_⟩
    exact ih name a b hi hj (ha.2 _ (Members.mem_of_get? hi)) (hb.2 _ (Members.mem_of_get? hj))

/-- The comparison decides equality of values in which names are distinct. -/
theorem same_iff_equal {a b : Value} (ha : a.HasDistinctNames) (hb : b.HasDistinctNames) :
    a.same b = true ↔ Equal a b :=
  ⟨equal_of_same ha hb, same_of_equal ha hb⟩

/-! ### Equivalence -/

theorem Equal.refl (a : Value) : Equal a a := by
  induction a using induct with
  | null => exact .null
  | bool b => exact .bool b
  | integer n => exact .integer n
  | float x => exact .float (Or.inl rfl)
  | string s => exact .string s
  | array items ih =>
    refine .array (fun _ => Iff.rfl) fun i a b hi hj => ?_
    obtain rfl : a = b := Option.some.inj (hi.symm.trans hj)
    exact ih a (List.mem_of_getElem? hi)
  | object members ih =>
    refine .object (fun _ => Iff.rfl) fun name a b hi hj => ?_
    obtain rfl : a = b := Option.some.inj (hi.symm.trans hj)
    exact ih _ (Members.mem_of_get? hi)

theorem Equal.symm {a b : Value} (h : Equal a b) : Equal b a := by
  induction h with
  | null => exact .null
  | bool b => exact .bool b
  | integer n => exact .integer n
  | float hxy => exact .float (hxy.imp Eq.symm And.symm)
  | string s => exact .string s
  | array hnone _ ih => exact .array (fun i => (hnone i).symm) fun i a b hi hj => ih i b a hj hi
  | object hnone _ ih =>
    exact .object (fun name => (hnone name).symm) fun name a b hi hj => ih name b a hj hi

/-- Equality up to the order of members is transitive. -/
theorem Equal.trans {a b c : Value} (hab : Equal a b) (hbc : Equal b c) : Equal a c := by
  induction hab generalizing c with
  | null => exact hbc
  | bool b => exact hbc
  | integer n => exact hbc
  | string s => exact hbc
  | @float x y hxy =>
    cases hbc with
    | @float _ z hyz =>
      refine .float ?_
      rcases hxy with rfl | ⟨hx, hy⟩
      · exact hyz
      · rcases hyz with rfl | ⟨_, hz⟩
        · exact Or.inr ⟨hx, hy⟩
        · exact Or.inr ⟨hx, hz⟩
  | array hnone _ ih =>
    cases hbc with
    | array hnone' hequal =>
      refine .array (fun i => (hnone i).trans (hnone' i)) fun i a c hi hk => ?_
      obtain ⟨b, hj⟩ := Option.ne_none_iff_exists'.1 fun h => by simp [(hnone i).2 h] at hi
      exact ih i a b hi hj (hequal i b c hj hk)
  | object hnone _ ih =>
    cases hbc with
    | object hnone' hequal =>
      refine .object (fun name => (hnone name).trans (hnone' name)) fun name a c hi hk => ?_
      obtain ⟨b, hj⟩ := Option.ne_none_iff_exists'.1 fun h => by simp [(hnone name).2 h] at hi
      exact ih name a b hi hj (hequal name b c hj hk)

end Value

end Json

/-! ### Programs and candidates -/

namespace Candidate

/-- Candidates are compared by the equality of their trees. -/
theorem same_iff_equal (a b : Candidate) :
    a.same b = true ↔ Json.Value.Equal a.tree.toValue b.tree.toValue :=
  Json.Value.same_iff_equal a.tree.distinct b.tree.distinct

theorem same_refl (a : Candidate) : a.same a = true :=
  (same_iff_equal a a).2 (.refl _)

theorem same_comm (a b : Candidate) : a.same b = b.same a := by
  rw [Bool.eq_iff_iff, same_iff_equal, same_iff_equal]
  exact ⟨.symm, .symm⟩

/-- What a candidate is the same as depends on its tree up to equality. -/
theorem same_congr_left {a b : Candidate} (h : a.same b = true) (c : Candidate) :
    a.same c = b.same c := by
  rw [same_iff_equal] at h
  rw [Bool.eq_iff_iff, same_iff_equal, same_iff_equal]
  exact ⟨h.symm.trans, h.trans⟩

/-- Candidates that are the same are the same as the same ones. -/
theorem same_eq_same {a b : Candidate} (h : a.same b = true) : a.same = b.same :=
  funext fun c => same_congr_left h c

end Candidate

end EvidenceSynthesis
