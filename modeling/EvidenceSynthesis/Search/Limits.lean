import EvidenceSynthesis.Search.Error

/-!
# Limits of a search

How often a search draws at most, which lead ends it early, and how many of the
ranked candidates it considers.  None of the limits may be zero.
-/

namespace EvidenceSynthesis

/-- The bounds of a search. -/
structure Limits where
  /-- How many draws are made at most; those that are rejected count as well. -/
  maxDraws : UInt64
  /-- The lead of the first candidate over the second that ends the search. -/
  gapThreshold : UInt32
  /-- How many candidates are considered for the answer. -/
  topK : UInt64
  deriving Repr, DecidableEq

namespace Limits

/-- The limits that hold where no others are set. -/
def standard : Limits := ⟨100, 10, 10⟩

/-- Whether no limit is zero. -/
def IsValid (limits : Limits) : Prop :=
  limits.maxDraws ≠ 0 ∧ limits.gapThreshold ≠ 0 ∧ limits.topK ≠ 0

instance (limits : Limits) : Decidable limits.IsValid :=
  inferInstanceAs (Decidable (_ ∧ _ ∧ _))

/-- The first limit that is zero. -/
def zeroLimit? (limits : Limits) : Option LimitName :=
  if limits.maxDraws = 0 then some .maxDraws
  else if limits.gapThreshold = 0 then some .gapThreshold
  else if limits.topK = 0 then some .topK
  else none

/-- Limits are valid exactly if none of them is zero. -/
theorem zeroLimit?_eq_none_iff {limits : Limits} : limits.zeroLimit? = none ↔ limits.IsValid := by
  unfold zeroLimit? IsValid
  split <;> rename_i h₁
  · simp [h₁]
  · split <;> rename_i h₂
    · simp [h₂]
    · split <;> rename_i h₃ <;> simp [h₁, h₂, h₃]

/-- Refuses limits of which one is zero. -/
def validate (limits : Limits) : Except SearchError { l : Limits // l.IsValid } :=
  match h : limits.zeroLimit? with
  | some name => .error (.zeroLimit name)
  | none => .ok ⟨limits, zeroLimit?_eq_none_iff.1 h⟩

end Limits

/-- Limits of which none is zero. -/
abbrev ValidLimits := { limits : Limits // limits.IsValid }

end EvidenceSynthesis
