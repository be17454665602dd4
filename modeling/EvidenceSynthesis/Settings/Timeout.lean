import EvidenceSynthesis.Text.Blank
import EvidenceSynthesis.Text.Numerals
import EvidenceSynthesis.Word

/-!
# Timeouts

How long a connection may take to send a request and to take its answer, in
milliseconds, as an environment variable gives it.
-/

namespace EvidenceSynthesis.Timeout

/-- The variable that sets the time. -/
def variableName : String := "BAYOU_IO_TIMEOUT_MS"

/-- The time if none is set. -/
def standard : Nat := 10000

/-- The time that a text gives: a positive word, with or without blanks around it. -/
def ofText? (s : String) : Option Nat :=
  (Text.word? Word.bound64 (Text.trimBlank s.toList)).filter (0 < ·)

/-- The time for the content of the variable. -/
def ofVariable (content : Option String) : Nat :=
  (content.bind ofText?).getD standard

end EvidenceSynthesis.Timeout
