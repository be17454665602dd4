import EvidenceSynthesis.Files.Error

/-!
# Paths

A path leads from one directory to the next: a name enters what the directory holds under
it, one dot stays, and two dots go back to the directory around.  Slashes stand between
the steps, and several of them count as one.  A path that ends with a slash or with dots
leads to a directory.
-/

namespace EvidenceSynthesis

/-- A step of a path. -/
inductive PathStep where
  | stay
  | back
  | enter (name : String)
  deriving Repr, DecidableEq

/-- The steps from the root. -/
structure FilePath where
  steps : List PathStep
  endsWithSlash : Bool
  deriving Repr, DecidableEq

namespace FilePath

/-- The most octets that a name may have. -/
def nameBound : Nat := 255

/-- The most octets that the text of a path may have. -/
def textBound : Nat := 4095

/-- The step that stands between two slashes. -/
def step? : List Char → Option PathStep
  | [] => none
  | ['.'] => some .stay
  | ['.', '.'] => some .back
  | name => some (.enter (String.ofList name))

/-- The path that a text writes. -/
def ofText (s : String) : Except FileError FilePath :=
  if s.isEmpty then .error .missing
  else if textBound < s.utf8ByteSize then .error .nameTooLong
  else .ok ⟨(s.toList.splitOn '/').filterMap step?, s.toList.getLast? == some '/'⟩

/-- The text of a path into a directory. -/
def within (directory name : String) : String :=
  match directory.toList.getLast? with
  | none => name
  | some '/' => directory ++ name
  | some _ => directory ++ "/" ++ name

/-- Whether what the path leads to has to be a directory. -/
def namesDirectory (path : FilePath) : Bool :=
  path.endsWithSlash ||
    match path.steps.getLast? with
    | some (.enter _) => false
    | _ => true

/-- Of steps from the last to the first, those up to each one that does not stay. -/
def arrivals : List PathStep → List (List PathStep)
  | [] => []
  | .stay :: before => arrivals before
  | step :: before => (step :: before) :: arrivals before

/-- The paths to the directories around, the nearest first. -/
def around (path : FilePath) : List FilePath :=
  (arrivals path.steps.reverse).tail.map fun steps => ⟨steps.reverse, false⟩

end FilePath

end EvidenceSynthesis
