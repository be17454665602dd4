/-!
# Kinds of evidence

The categories of tokens that a request may ask for, and their names.
-/

namespace EvidenceSynthesis

/-- A category of evidence tokens. -/
inductive Kind where
  /-- Names of called methods. -/
  | apiCalls
  /-- Names of the classes that the methods belong to. -/
  | types
  /-- Names of argument types. -/
  | context
  deriving Repr, DecidableEq

namespace Kind

/-- All kinds, in the order in which they are reported. -/
def all : List Kind := [apiCalls, types, context]

/-- The name of a kind. -/
def name : Kind → String
  | apiCalls => "apicalls"
  | types => "types"
  | context => "context"

/-- The kind with a name. -/
def ofName? (name : String) : Option Kind :=
  all.find? fun kind => kind.name == name

/-- A name that is reserved for a kind without an extractor. -/
def reservedName : String := "javadoc"

/-- The list of kinds leaves none out. -/
theorem mem_all (kind : Kind) : kind ∈ all := by
  cases kind <;> decide

/-- Kinds are told apart by their names. -/
theorem name_injective {k l : Kind} (h : k.name = l.name) : k = l := by
  cases k <;> cases l <;> simp_all [name]

end Kind

end EvidenceSynthesis
