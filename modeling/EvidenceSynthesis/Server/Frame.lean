import EvidenceSynthesis.Failure
import EvidenceSynthesis.Text.Utf8
import EvidenceSynthesis.Word

/-!
# Frames

A message travels as a frame: the number of its octets as a signed 32-bit integer, the
highest octet first, and then the octets themselves.  A reader takes one frame from the
front of what has arrived and leaves the rest.
-/

namespace EvidenceSynthesis

open Text (Octets)

/-- Why a frame cannot be read or written. -/
inductive FrameError where
  /-- The length is below zero. -/
  | negativeLength (length : Int)
  /-- The length is above what is allowed. -/
  | tooLarge (length limit : Nat)
  /-- The octets end before as many as expected have arrived. -/
  | truncated (expected : Nat)
  /-- The octets of a text are not well-formed UTF-8. -/
  | notText (fault : Text.Utf8.Fault)
  deriving Repr, DecidableEq

namespace FrameError

/-- The text of an error. -/
def message : FrameError → String
  | negativeLength length => s!"negative frame length {length}"
  | tooLarge length limit => s!"frame of {length} bytes exceeds {limit} bytes"
  | truncated expected => s!"connection closed before {expected} frame bytes arrived"
  | notText fault => s!"frame is not valid UTF-8: {fault.message}"

/-- The error as a failure. -/
def toFailure (error : FrameError) : Failure :=
  match error with
  | notText fault => .ofCauses error.message [fault.message]
  | _ => .of error.message

end FrameError

namespace Frame

/-- The greatest number of octets that is accepted where no tighter limit is set. -/
def standardLimit : Nat := 16 * 1024 * 1024

/-- The greatest length that a frame can state. -/
def greatestLength : Nat := Word.bound31 - 1

/-- The number of octets of a length. -/
def headerSize : Nat := 4

/-! ### Lengths -/

/-- The octets that state a length. -/
def header (length : Nat) : Octets :=
  [UInt8.ofNat (length / Word.bound24), UInt8.ofNat (length / Word.bound16),
   UInt8.ofNat (length / Word.bound8), UInt8.ofNat length]

/-- The integer that four octets state. -/
def statedLength (a b c d : UInt8) : Int :=
  let word := ((a.toNat * 256 + b.toNat) * 256 + c.toNat) * 256 + d.toNat
  if word < Word.bound31 then word else (word : Int) - Word.bound32

/-! ### Reading and writing -/

/-- The first `length` octets and the rest. -/
def takeBody (length : Nat) (octets : Octets) : Except FrameError (Octets × Octets) :=
  let body := octets.take length
  if body.length < length then .error (.truncated length) else .ok (body, octets.drop length)

/-- The first message of what has arrived, and the rest. -/
def read (limit : Nat) : Octets → Except FrameError (Octets × Octets)
  | a :: b :: c :: d :: rest =>
    match statedLength a b c d with
    | .negSucc n => .error (.negativeLength (.negSucc n))
    | .ofNat length =>
      if limit < length then .error (.tooLarge length limit) else takeBody length rest
  | _ => .error (.truncated headerSize)

/-- The first message of what has arrived as a text, and the rest. -/
def readText (limit : Nat) (octets : Octets) : Except FrameError (String × Octets) :=
  match read limit octets with
  | .error error => .error error
  | .ok (body, rest) =>
    match Text.Utf8.decode body with
    | .ok text => .ok (text, rest)
    | .error fault => .error (.notText fault)

/-- The frame of a message. -/
def write (body : Octets) : Except FrameError Octets :=
  if greatestLength < body.length then .error (.tooLarge body.length greatestLength)
  else .ok (header body.length ++ body)

/-- A header has the same size whatever length it announces. -/
@[simp] theorem length_header (length : Nat) : (header length).length = headerSize := rfl

/-- A length that is not too great is read back from its header. -/
theorem statedLength_header {length : Nat} (h : length ≤ greatestLength) :
    statedLength (UInt8.ofNat (length / Word.bound24)) (UInt8.ofNat (length / Word.bound16))
      (UInt8.ofNat (length / Word.bound8)) (UInt8.ofNat length) = length := by
  simp only [greatestLength, Word.bound31] at h
  simp only [statedLength, Word.bound24, Word.bound16, Word.bound8, Word.bound31, Word.bound32,
    UInt8.toNat_ofNat']
  have hword : ((length / 16777216 % 256 * 256 + length / 65536 % 256) * 256 +
      length / 256 % 256) * 256 + length % 256 = length := by omega
  simp only [Nat.reducePow]
  rw [hword, if_pos (by omega)]

/-- A body is cut off where its length says. -/
theorem takeBody_append (body rest : Octets) :
    takeBody body.length (body ++ rest) = .ok (body, rest) := by
  simp [takeBody]

/-- What was written as a frame is read back, whatever follows it, or refused for its length. -/
theorem read_write {body frame : Octets} (hframe : write body = .ok frame) (limit : Nat)
    (rest : Octets) :
    read limit (frame ++ rest) =
      if limit < body.length then .error (.tooLarge body.length limit) else .ok (body, rest) := by
  unfold write at hframe
  split at hframe
  · cases hframe
  · rename_i hlength
    cases hframe
    simp only [header, List.cons_append, List.nil_append, read]
    rw [statedLength_header (Nat.le_of_not_lt hlength)]
    show (if limit < body.length then _ else takeBody body.length (body ++ rest)) = _
    rw [takeBody_append]

end Frame

end EvidenceSynthesis
