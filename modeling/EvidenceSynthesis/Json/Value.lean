import EvidenceSynthesis.Decimal.Binary64

/-!
# JSON values

A JSON value keeps what a document says and how far it says it: the members of an
object stay in the order of the document, and an integer is another value than the
binary64 number of the same size.

Two values are the *same* when they agree up to the order of members and the sign of
zero.  Members are reached by name, and `put` is the one way in which a member enters
an object, so that no name occurs twice.
-/

namespace EvidenceSynthesis.Json

open EvidenceSynthesis.Decimal (Binary64)

/-- A JSON value. -/
inductive Value where
  | null
  | bool (b : Bool)
  | integer (n : Int)
  | float (x : Binary64)
  | string (s : String)
  | array (items : List Value)
  | object (members : List (String × Value))
  deriving Inhabited

/-- The members of an object, in the order of the document. -/
abbrev Members := List (String × Value)

namespace Members

/-- The value of the first member with this name. -/
def get? (name : String) : Members → Option Value
  | [] => none
  | (key, value) :: rest => if key = name then some value else get? name rest

/-- Whether a member has this name. -/
def has (members : Members) (name : String) : Bool :=
  members.any fun member => member.1 == name

/-- Gives the member `name` a value: in the place of the old one, or at the end. -/
def put (name : String) (value : Value) : Members → Members
  | [] => [(name, value)]
  | (key, old) :: rest =>
    if key = name then (key, value) :: rest else (key, old) :: put name value rest

/-- The members after putting a list of members one by one. -/
def ofList (entries : List (String × Value)) : Members :=
  entries.foldl (fun members entry => put entry.1 entry.2 members) []

/-- The names of the members, in order. -/
def names (members : Members) : List String :=
  members.map (·.1)

@[simp] theorem get?_nil (name : String) : get? name [] = none := rfl

/-- A member that was put is found. -/
theorem get?_put_self (name : String) (value : Value) (members : Members) :
    get? name (put name value members) = some value := by
  induction members with
  | nil => simp [put, get?]
  | cons member rest ih =>
    by_cases h : member.1 = name <;> simp [put, get?, h, ih]

/-- Putting a member leaves those of other names. -/
theorem get?_put_of_ne {name other : String} (h : other ≠ name) (value : Value)
    (members : Members) : get? other (put name value members) = get? other members := by
  induction members with
  | nil => simp [put, get?, Ne.symm h]
  | cons member rest ih =>
    by_cases hk : member.1 = name
    · simp [put, get?, hk, Ne.symm h]
    · by_cases ho : member.1 = other
      · subst ho
        simp [put, get?, h]
      · simp [put, get?, hk, ho, ih]

/-- A member that is found is one of the members. -/
theorem mem_of_get? {name : String} {value : Value} {members : Members}
    (h : get? name members = some value) : (name, value) ∈ members := by
  induction members with
  | nil => simp at h
  | cons member rest ih =>
    by_cases hk : member.1 = name
    · simp only [get?, if_pos hk, Option.some.injEq] at h
      rw [← hk, ← h]
      exact List.mem_cons_self
    · simp only [get?, if_neg hk] at h
      exact List.mem_cons_of_mem member (ih h)

/-- A name is looked up with a result exactly if it is the name of a member. -/
theorem get?_eq_none_iff {name : String} {members : Members} :
    get? name members = none ↔ name ∉ names members := by
  induction members with
  | nil => simp [names]
  | cons member rest ih =>
    by_cases hk : member.1 = name
    · simp [get?, names, hk]
    · simp only [names] at ih
      simp [get?, names, hk, Ne.symm hk, ih]

/-- Where names are distinct, a member is found under its name. -/
theorem get?_of_mem {name : String} {value : Value} {members : Members}
    (hnames : (names members).Nodup) (h : (name, value) ∈ members) :
    get? name members = some value := by
  induction members with
  | nil => simp at h
  | cons member rest ih =>
    obtain ⟨habsent, hrest⟩ := List.nodup_cons.1 hnames
    rcases List.mem_cons.1 h with rfl | hmem
    · simp [get?]
    · have hk : member.1 ≠ name := by
        intro hk
        exact habsent (List.mem_map.2 ⟨(name, value), hmem, hk.symm⟩)
      rw [get?, if_neg hk]
      exact ih hrest hmem

/-- A new name is added at the end, and a known name stays in its place. -/
theorem names_put (name : String) (value : Value) (members : Members) :
    names (put name value members) =
      if name ∈ names members then names members else names members ++ [name] := by
  induction members with
  | nil => simp [put, names]
  | cons member rest ih =>
    by_cases h : member.1 = name
    · simp [put, names, h]
    · simp only [names] at ih ⊢
      simp only [put, if_neg h, List.map_cons, ih, List.mem_cons, Ne.symm h, false_or]
      by_cases hname : name ∈ rest.map (·.1) <;> simp [hname]

/-- Putting a member does not repeat a name. -/
theorem nodup_names_put {members : Members} (h : (names members).Nodup) (name : String)
    (value : Value) : (names (put name value members)).Nodup := by
  rw [names_put]
  split
  · exact h
  · rename_i hname
    refine List.nodup_append.2 ⟨h, by simp, ?_⟩
    intro a ha b hb
    rw [List.mem_singleton.1 hb]
    exact fun hab => hname (hab ▸ ha)

end Members

namespace Value

/-- The value of a member, if the value is an object that has it. -/
def member? (name : String) : Value → Option Value
  | object members => Members.get? name members
  | _ => none

/-- The items of an array. -/
def items? : Value → Option (List Value)
  | array items => some items
  | _ => none

/-- The characters of a string. -/
def text? : Value → Option String
  | string s => some s
  | _ => none

/-- The members of an object. -/
def members? : Value → Option Members
  | object members => some members
  | _ => none

/-- A natural number as a value. -/
def ofNat (n : Nat) : Value :=
  integer n

/-- A list of texts as a value. -/
def ofTexts (texts : List String) : Value :=
  array (texts.map string)

/-! ### Sameness -/

mutual

/-- Whether two values agree up to the order of members and the sign of zero. -/
def same : Value → Value → Bool
  | null, null => true
  | bool a, bool b => a == b
  | integer m, integer n => m == n
  | float x, float y => x.sameValue y
  | string s, string t => s == t
  | array items, array others => sameItems items others
  | object members, object others =>
    members.length == others.length && sameMembers members others
  | _, _ => false

/-- Whether two lists of values agree place by place. -/
def sameItems : List Value → List Value → Bool
  | [], [] => true
  | a :: items, b :: others => same a b && sameItems items others
  | _, _ => false

/-- Whether each of the members has a member of the same name and value among the
others. -/
def sameMembers : List (String × Value) → List (String × Value) → Bool
  | [], _ => true
  | (key, value) :: rest, others =>
    (match Members.get? key others with
      | some other => same value other
      | none => false) && sameMembers rest others

end

/-! ### Distinct names -/

mutual

/-- Whether no object within the value has two members of one name. -/
def HasDistinctNames : Value → Prop
  | array items => ItemsHaveDistinctNames items
  | object members => (Members.names members).Nodup ∧ MembersHaveDistinctNames members
  | _ => True

/-- `HasDistinctNames` for every item. -/
def ItemsHaveDistinctNames : List Value → Prop
  | [] => True
  | item :: rest => HasDistinctNames item ∧ ItemsHaveDistinctNames rest

/-- `HasDistinctNames` for the value of every member. -/
def MembersHaveDistinctNames : List (String × Value) → Prop
  | [] => True
  | (_, value) :: rest => HasDistinctNames value ∧ MembersHaveDistinctNames rest

end

/-- Items have distinct names exactly if each of them has. -/
theorem itemsHaveDistinctNames_iff {items : List Value} :
    ItemsHaveDistinctNames items ↔ ∀ item ∈ items, item.HasDistinctNames := by
  induction items with
  | nil => simp [ItemsHaveDistinctNames]
  | cons item rest ih => simp [ItemsHaveDistinctNames, ih]

/-- The values of members have distinct names exactly if each of them has. -/
theorem membersHaveDistinctNames_iff {members : Members} :
    MembersHaveDistinctNames members ↔ ∀ member ∈ members, member.2.HasDistinctNames := by
  induction members with
  | nil => simp [MembersHaveDistinctNames]
  | cons member rest ih => simp [MembersHaveDistinctNames, ih]

/-- Putting a member keeps the names within the values distinct. -/
theorem membersHaveDistinctNames_put {members : Members} {value : Value}
    (hmembers : MembersHaveDistinctNames members) (hvalue : value.HasDistinctNames)
    (name : String) : MembersHaveDistinctNames (Members.put name value members) := by
  induction members with
  | nil => exact ⟨hvalue, trivial⟩
  | cons member rest ih =>
    obtain ⟨hold, hrest⟩ := hmembers
    by_cases h : member.1 = name
    · simp only [Members.put, if_pos h]
      exact ⟨hvalue, hrest⟩
    · simp only [Members.put, if_neg h]
      exact ⟨hold, ih hrest⟩

end Value

end EvidenceSynthesis.Json
