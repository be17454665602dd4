import EvidenceSynthesis.Search.Limits
import EvidenceSynthesis.Settings.Assignments
import EvidenceSynthesis.Text.Utf8

/-!
# Settings of a search

The limits of a search are those of the command line; where it gives none, those of the
file `search.toml` beside the model; and the standard limits otherwise.  The limits in
the file must be valid by themselves.
-/

namespace EvidenceSynthesis

namespace Limits

/-- Sets the limit of a name; none if the name is unknown or the number too large for
the limit. -/
def set? (limits : Limits) (name : String) (n : Int) : Option Limits :=
  if n < 0 then none
  else if name = LimitName.maxDraws.text then
    some { limits with maxDraws := UInt64.ofNat n.toNat }
  else if name = LimitName.gapThreshold.text then
    if n < Word.bound32 then some { limits with gapThreshold := UInt32.ofNat n.toNat } else none
  else if name = LimitName.topK.text then
    some { limits with topK := UInt64.ofNat n.toNat }
  else none

/-- The limits that assignments set; the others are standard. -/
def ofAssignments? (assignments : Assignments) : Option Limits :=
  assignments.foldlM (fun limits entry => limits.set? entry.1 entry.2) standard

/-- The valid limits of a text. -/
def ofText (s : String) : Except SearchError ValidLimits :=
  match (Assignments.ofText? s).bind ofAssignments? with
  | some limits => limits.validate
  | none => .error .notAssignments

/-- The valid limits in a file. -/
def ofFile (file : Except FileError Text.Octets) : Except SearchError ValidLimits :=
  match file with
  | .error error => .error (.io error)
  | .ok octets =>
    match Text.Utf8.decode octets with
    | .ok s => ofText s
    | .error _ => .error (.io .notText)

end Limits

/-- Limits that take the place of others. -/
structure LimitOverrides where
  maxDraws : Option UInt64
  gapThreshold : Option UInt32
  topK : Option UInt64
  deriving Repr, DecidableEq

namespace LimitOverrides

/-- No limit is overridden. -/
def none : LimitOverrides := ⟨.none, .none, .none⟩

/-- The limits after overriding. -/
def apply (overrides : LimitOverrides) (limits : Limits) : Limits where
  maxDraws := overrides.maxDraws.getD limits.maxDraws
  gapThreshold := overrides.gapThreshold.getD limits.gapThreshold
  topK := overrides.topK.getD limits.topK

end LimitOverrides

namespace SearchSettings

/-- The file of the limits, within the directory of a model. -/
def fileName : String := "search.toml"

/-- The limits of the file at a path, or the standard limits if there is no file. -/
def base (path : String) : Option (Except FileError Text.Octets) → Except Failure Limits
  | none => .ok .standard
  | some file =>
    match Limits.ofFile file with
    | .ok limits => .ok limits.1
    | .error error =>
      .error (error.toFailure.within s!"Failed to load search settings {path}")

/-- The limits in force, given the file of a model if it has one. -/
def resolve (path : String) (file : Option (Except FileError Text.Octets))
    (overrides : LimitOverrides) : Except Failure ValidLimits := do
  let limits ← base path file
  (overrides.apply limits).validate.mapError SearchError.toFailure

end SearchSettings

end EvidenceSynthesis
