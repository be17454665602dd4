import EvidenceSynthesis.Evidence.Call
import EvidenceSynthesis.Evidence.TokenSet
import EvidenceSynthesis.Json.Value

/-!
# Evidence

Evidence is a set of tokens of each kind.  It is requested by a caller, and it is
derived from the calls of a program; a program fits a request if its calls yield every
requested token.
-/

namespace EvidenceSynthesis

/-- A set of tokens of each kind. -/
structure Evidence where
  apiCalls : TokenSet
  types : TokenSet
  context : TokenSet
  deriving DecidableEq

namespace Evidence

/-- The tokens of a kind. -/
def get (evidence : Evidence) : Kind → TokenSet
  | .apiCalls => evidence.apiCalls
  | .types => evidence.types
  | .context => evidence.context

/-- The evidence that has the given tokens of each kind. -/
def ofKinds (tokens : Kind → TokenSet) : Evidence :=
  ⟨tokens .apiCalls, tokens .types, tokens .context⟩

@[simp] theorem get_ofKinds (tokens : Kind → TokenSet) (kind : Kind) :
    (ofKinds tokens).get kind = tokens kind := by
  cases kind <;> rfl

/-- Evidence without tokens. -/
def empty : Evidence := ofKinds fun _ => ∅

/-- Changes the tokens of one kind. -/
def modify (evidence : Evidence) (kind : Kind) (change : TokenSet → TokenSet) : Evidence :=
  ofKinds fun k => if k = kind then change (evidence.get k) else evidence.get k

/-- Adds tokens of a kind. -/
def add (evidence : Evidence) (kind : Kind) (tokens : List String) : Evidence :=
  evidence.modify kind fun set => set.union (.ofList tokens)

/-- Removes tokens of a kind. -/
def remove (evidence : Evidence) (kind : Kind) (tokens : List String) : Evidence :=
  evidence.modify kind fun set => set.diff (.ofList tokens)

/-- Removes all tokens of a kind. -/
def clear (evidence : Evidence) (kind : Kind) : Evidence :=
  evidence.modify kind fun _ => ∅

/-- Whether there is no token of any kind. -/
def isEmpty (evidence : Evidence) : Bool :=
  Kind.all.all fun kind => (evidence.get kind).isEmpty

/-- Evidence is determined by its tokens of each kind. -/
theorem ext_get {a b : Evidence} (h : ∀ kind, a.get kind = b.get kind) : a = b := by
  obtain ⟨_, _, _⟩ := a
  obtain ⟨_, _, _⟩ := b
  have h₁ := h .apiCalls
  have h₂ := h .types
  have h₃ := h .context
  simp_all [get]

/-! ### Derivation from calls -/

/-- The tokens that calls yield. -/
def ofCalls (calls : List String) : Evidence :=
  ofKinds fun kind => .ofList (calls.flatMap kind.extract)

/-- A token comes from calls exactly if one of them yields it. -/
theorem mem_ofCalls {calls : List String} {kind : Kind} {token : String} :
    token ∈ (ofCalls calls).get kind ↔ ∃ call ∈ calls, token ∈ kind.extract call := by
  simp [ofCalls]

/-! ### Coverage -/

/-- Whether the calls yield every requested token. -/
def isCoveredBy (requested : Evidence) (calls : List String) : Bool :=
  let derived := ofCalls calls
  Kind.all.all fun kind => (requested.get kind).isSubset (derived.get kind)

/-- The requested tokens that are not derived, by kind and then by code point. -/
def missing (requested derived : Evidence) : List (Kind × String) :=
  Kind.all.flatMap fun kind =>
    ((requested.get kind).diff (derived.get kind)).toList.map fun token => (kind, token)

/-- Evidence is covered if each of its tokens is yielded by some call. -/
theorem isCoveredBy_iff {requested : Evidence} {calls : List String} :
    requested.isCoveredBy calls = true ↔
      ∀ kind, ∀ token ∈ requested.get kind, ∃ call ∈ calls, token ∈ kind.extract call := by
  simp only [isCoveredBy, List.all_eq_true, TokenSet.isSubset_iff, mem_ofCalls]
  exact ⟨fun h kind => h kind kind.mem_all, fun h kind _ => h kind⟩

/-! ### JSON -/

/-- The members under which the tokens of each kind are written. -/
def members (evidence : Evidence) : Json.Members :=
  Kind.all.map fun kind => (kind.name, Json.Value.ofTexts (evidence.get kind).toList)

end Evidence

end EvidenceSynthesis
