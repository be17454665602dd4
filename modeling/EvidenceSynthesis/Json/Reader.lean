import EvidenceSynthesis.Json.Document

/-!
# Reading JSON values

The value of a document: the last member of a name counts, in the place of the
first; a string must spell a text, a numeral must have a value, and arrays and
objects may nest as deep as the depth allows.
-/

namespace EvidenceSynthesis.Json

open EvidenceSynthesis.Text (Octets)

/-- How deep arrays and objects may nest in a value that is read. -/
def maxDepth : Nat := 127

/-- The value of a part without parts. -/
def Scalar.value? : Scalar → Option Value
  | .null => some .null
  | .bool b => some (.bool b)
  | .numeral n => n.value?
  | .text content => content.map .string

namespace Document

mutual

/-- The value of a document whose arrays and objects nest at most `depth` deep. -/
def value? (depth : Nat) : Document → Option Value
  | .scalar leaf => leaf.value?
  | .array items =>
    match depth with
    | 0 => none
    | depth + 1 => (itemValues? depth items).map .array
  | .object members =>
    match depth with
    | 0 => none
    | depth + 1 => (memberValues? depth [] members).map .object

/-- The values of the items of an array. -/
def itemValues? (depth : Nat) : List Document → Option (List Value)
  | [] => some []
  | item :: rest =>
    match value? depth item with
    | some value => (itemValues? depth rest).map (value :: ·)
    | none => none

/-- The members of an object, put one by one to those before. -/
def memberValues? (depth : Nat) (before : Members) :
    List (Option String × Document) → Option Members
  | [] => some before
  | (name, document) :: rest =>
    match name, value? depth document with
    | some name, some value => memberValues? depth (before.put name value) rest
    | _, _ => none

end

mutual

/-- In a value that is read no object has two members of one name. -/
theorem hasDistinctNames_of_value? {depth : Nat} {value : Value} :
    ∀ {document : Document}, document.value? depth = some value → value.HasDistinctNames
  | .scalar leaf, h => by
    rw [value?] at h
    cases leaf with
    | null => cases h; trivial
    | bool b => cases h; trivial
    | numeral n =>
      simp only [Scalar.value?, Numeral.value?] at h
      split at h
      · cases h; trivial
      · obtain ⟨x, _, rfl⟩ := Option.map_eq_some_iff.1 h
        trivial
    | text content =>
      obtain ⟨s, _, rfl⟩ := Option.map_eq_some_iff.1 h
      trivial
  | .array items, h => by
    cases depth with
    | zero => simp [value?] at h
    | succ depth =>
      rw [value?] at h
      obtain ⟨values, hvalues, rfl⟩ := Option.map_eq_some_iff.1 h
      exact itemsHaveDistinctNames_of_itemValues? hvalues
  | .object members, h => by
    cases depth with
    | zero => simp [value?] at h
    | succ depth =>
      rw [value?] at h
      obtain ⟨read, hread, rfl⟩ := Option.map_eq_some_iff.1 h
      have hempty : (Members.names []).Nodup := List.nodup_nil
      exact membersHaveDistinctNames_of_memberValues? hempty trivial hread

/-- Items that are read have no name twice. -/
theorem itemsHaveDistinctNames_of_itemValues? {depth : Nat} {values : List Value} :
    ∀ {items : List Document}, itemValues? depth items = some values →
      Value.ItemsHaveDistinctNames values
  | [], h => by
    cases h
    trivial
  | item :: rest, h => by
    rw [itemValues?] at h
    split at h
    · rename_i value hvalue
      obtain ⟨others, hothers, rfl⟩ := Option.map_eq_some_iff.1 h
      exact ⟨hasDistinctNames_of_value? hvalue, itemsHaveDistinctNames_of_itemValues? hothers⟩
    · cases h

/-- Members that are read after others have no name twice if those had none. -/
theorem membersHaveDistinctNames_of_memberValues? {depth : Nat} {before members : Members}
    (hnames : (Members.names before).Nodup) (hbefore : Value.MembersHaveDistinctNames before) :
    ∀ {documents : List (Option String × Document)},
      memberValues? depth before documents = some members →
      (Members.names members).Nodup ∧ Value.MembersHaveDistinctNames members
  | [], h => by
    cases h
    exact ⟨hnames, hbefore⟩
  | (none, document) :: rest, h => by
    simp [memberValues?] at h
  | (some name, document) :: rest, h => by
    cases hvalue : value? depth document with
    | none => simp [memberValues?, hvalue] at h
    | some value =>
      simp only [memberValues?, hvalue] at h
      exact membersHaveDistinctNames_of_memberValues? (Members.nodup_names_put hnames name value)
        (Value.membersHaveDistinctNames_put hbefore (hasDistinctNames_of_value? hvalue) name) h

end

end Document

namespace Value

/-- The value of a JSON text. -/
def ofText? (s : String) : Option Value :=
  (Document.ofText? s).bind (Document.value? maxDepth)

/-- The value of a JSON file. -/
def ofOctets? (octets : Octets) : Option Value :=
  (Document.ofOctets? octets).bind (Document.value? maxDepth)

end Value

end EvidenceSynthesis.Json
