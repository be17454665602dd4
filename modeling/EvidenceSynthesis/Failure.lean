/-!
# Failures

What an operation reports when it fails: the outermost cause first, then what led to
it.
-/

namespace EvidenceSynthesis

/-- A chain of causes, the outermost first. -/
structure Failure where
  cause : String
  causes : List String
  deriving Repr, DecidableEq

namespace Failure

/-- The failure with a single cause. -/
def of (cause : String) : Failure := ⟨cause, []⟩

/-- The failure whose causes are listed; the first one is the outermost. -/
def ofCauses (cause : String) (causes : List String) : Failure := ⟨cause, causes⟩

/-- The failure as the consequence of what failed on the outside. -/
def within (failure : Failure) (context : String) : Failure :=
  ⟨context, failure.cause :: failure.causes⟩

/-- The whole chain in one text. -/
def message (failure : Failure) : String :=
  ": ".intercalate (failure.cause :: failure.causes)

end Failure

end EvidenceSynthesis
