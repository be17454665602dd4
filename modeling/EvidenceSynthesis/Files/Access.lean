import EvidenceSynthesis.Files.Error
import EvidenceSynthesis.Text.Utf8

/-!
# Access to files

What a program does with files, whatever the files are kept in.
-/

namespace EvidenceSynthesis

open Text (Octets)

/-- The operations on files; `m` is the effect that they have. -/
structure FileAccess (m : Type → Type) where
  /-- Whether there is a file or directory at a path. -/
  isPresent : String → m Bool
  /-- The number of octets of a file. -/
  size : String → m (Except FileError Nat)
  /-- The content of a file. -/
  read : String → m (Except FileError Octets)
  /-- Gives a file a new content. -/
  write : String → Octets → m (Except FileError Unit)
  /-- Creates an empty file where there is none. -/
  ensure : String → m (Except FileError Unit)
  /-- Removes a file. -/
  remove : String → m (Except FileError Unit)
  /-- Gives a file another name, in place of any file that had it. -/
  rename : String → String → m (Except FileError Unit)
  /-- Creates a directory and those around it where there is none. -/
  createDirectories : String → m (Except FileError Unit)

end EvidenceSynthesis
