import EvidenceSynthesis.Json.Reader

/-!
# Program trees

A program is a JSON object whose nested objects are its nodes.  No object of it has two
members of one name.  A node that calls a method holds the signature under `_call`; an
object with a member `node` counts for the depth of the tree.
-/

namespace EvidenceSynthesis

/-- A program tree, given by the members of its root. -/
structure Tree where
  members : Json.Members
  distinct : (Json.Value.object members).HasDistinctNames

namespace Tree

open Json (Value Members Document)

/-- The name of the member that holds a call signature. -/
def callKey : String := "_call"

/-- The name of the member that marks a node. -/
def nodeKey : String := "node"

/-- The tree as a JSON value. -/
def toValue (tree : Tree) : Value :=
  .object tree.members

/-- A tree, as a value, has no name twice. -/
theorem hasDistinctNames_toValue (tree : Tree) : tree.toValue.HasDistinctNames :=
  tree.distinct

/-- The tree of a document that is an object and nests at most `depth` deep. -/
def ofDocument? (depth : Nat) (document : Document) : Option Tree :=
  match h : document.value? depth with
  | some (.object members) => some ⟨members, Document.hasDistinctNames_of_value? h⟩
  | _ => none

/-- The tree of a JSON text. -/
def ofText? (s : String) : Option Tree :=
  (Document.ofText? s).bind (ofDocument? Json.maxDepth)

/-- Whether two trees agree up to the order of members and the sign of zero. -/
def same (a b : Tree) : Bool :=
  a.toValue.same b.toValue

/-! ### Calls -/

mutual

/-- The signatures in a value that stands under the name `key`, in the order of the
document. -/
def callsUnder (key : String) : Value → List String
  | .string signature => if key = callKey then [signature] else []
  | .array items => callsOfItems items
  | .object members => callsOfMembers members
  | _ => []

/-- The signatures in the items of an array, which stand under no name. -/
def callsOfItems : List Value → List String
  | [] => []
  | item :: rest => callsUnder "" item ++ callsOfItems rest

/-- The signatures in the values of members. -/
def callsOfMembers : List (String × Value) → List String
  | [] => []
  | (key, value) :: rest => callsUnder key value ++ callsOfMembers rest

end

/-- The signatures in a tree, in the order of the document. -/
def calls (tree : Tree) : List String :=
  callsOfMembers tree.members

/-! ### Depth -/

mutual

/-- The greatest number of nodes within each other in a value. -/
def depthOfValue : Value → Nat
  | .array items => depthOfItems items
  | .object members => (if Members.has members nodeKey then 1 else 0) + depthOfMembers members
  | _ => 0

/-- The greatest depth of an item. -/
def depthOfItems : List Value → Nat
  | [] => 0
  | item :: rest => max (depthOfValue item) (depthOfItems rest)

/-- The greatest depth of the value of a member. -/
def depthOfMembers : List (String × Value) → Nat
  | [] => 0
  | (_, value) :: rest => max (depthOfValue value) (depthOfMembers rest)

end

/-- The greatest number of nodes within each other, the root included. -/
def depth (tree : Tree) : Nat :=
  depthOfValue tree.toValue

end Tree

end EvidenceSynthesis
