/-!
# Errors of files

Why a file cannot be read or changed.
-/

namespace EvidenceSynthesis

/-- Why a file cannot be read or changed. -/
inductive FileError where
  /-- There is no file of this name. -/
  | missing
  /-- There is something of this name already. -/
  | alreadyPresent
  /-- The name belongs to a directory. -/
  | isDirectory
  /-- A part of the path is a file and no directory. -/
  | notADirectory
  /-- The path, or a name on it, is too long. -/
  | nameTooLong
  /-- The content is not well-formed UTF-8. -/
  | notText
  /-- Any other failure that the file system reports. -/
  | other (reason : String)
  deriving Repr, DecidableEq

/-- The text of an error. -/
def FileError.message : FileError → String
  | missing => "No such file or directory (os error 2)"
  | alreadyPresent => "File exists (os error 17)"
  | isDirectory => "Is a directory (os error 21)"
  | notADirectory => "Not a directory (os error 20)"
  | nameTooLong => "File name too long (os error 36)"
  | notText => "stream did not contain valid UTF-8"
  | other reason => reason

end EvidenceSynthesis
