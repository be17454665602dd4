/-!
# UTF-8

Well-formed UTF-8 read from octets one character at a time.  Where the octets
are not well formed, the reader says how many of them form the longest start of
a character that went wrong, or that the text ended inside a character.

`decode` refuses a text at its first fault; `decodeWithHoles` reads on and leaves
a hole for each fault.
-/

namespace EvidenceSynthesis.Text

/-- The octets of a text. -/
abbrev Octets := List UInt8

namespace Utf8

/-- What stands at the head of a sequence of octets. -/
inductive Head where
  /-- A character of `width` octets. -/
  | scalar (c : Char) (width : Nat)
  /-- The first `width` octets start no character. -/
  | invalid (width : Nat)
  /-- The octets end inside a character. -/
  | incomplete
  deriving Repr, DecidableEq

/-- Whether an octet continues a character. -/
def isContinuation (b : UInt8) : Bool :=
  0x80 ≤ b && b ≤ 0xBF

/-- The six value bits of a continuation octet. -/
def tailBits (b : UInt8) : Nat :=
  b.toNat % 64

/-- Whether `b` may follow the first octet `lead` of a three-octet character:
overlong forms and surrogates are shut out here. -/
def isSecondOfThree (lead b : UInt8) : Bool :=
  (if lead == 0xE0 then 0xA0 else 0x80) ≤ b && b ≤ (if lead == 0xED then 0x9F else 0xBF)

/-- Whether `b` may follow the first octet `lead` of a four-octet character:
overlong forms and code points beyond `0x10FFFF` are shut out here. -/
def isSecondOfFour (lead b : UInt8) : Bool :=
  (if lead == 0xF0 then 0x90 else 0x80) ≤ b && b ≤ (if lead == 0xF4 then 0x8F else 0xBF)

/-- The character of two octets that begins with `lead`. -/
def headOfTwo (lead : UInt8) : Octets → Head
  | [] => .incomplete
  | b :: _ =>
    if isContinuation b then
      .scalar (Char.ofNat (lead.toNat % 32 * 64 + tailBits b)) 2
    else
      .invalid 1

/-- The character of three octets that begins with `lead`. -/
def headOfThree (lead : UInt8) : Octets → Head
  | [] => .incomplete
  | b :: rest =>
    if isSecondOfThree lead b then
      match rest with
      | [] => .incomplete
      | c :: _ =>
        if isContinuation c then
          .scalar (Char.ofNat ((lead.toNat % 16 * 64 + tailBits b) * 64 + tailBits c)) 3
        else
          .invalid 2
    else
      .invalid 1

/-- The character of four octets that begins with `lead`. -/
def headOfFour (lead : UInt8) : Octets → Head
  | [] => .incomplete
  | b :: rest =>
    if isSecondOfFour lead b then
      match rest with
      | [] => .incomplete
      | c :: rest =>
        if isContinuation c then
          match rest with
          | [] => .incomplete
          | d :: _ =>
            if isContinuation d then
              .scalar
                (Char.ofNat
                  (((lead.toNat % 8 * 64 + tailBits b) * 64 + tailBits c) * 64 + tailBits d)) 4
            else
              .invalid 3
        else
          .invalid 2
    else
      .invalid 1

/-- What stands at the head of the octets `lead :: rest`. -/
def head (lead : UInt8) (rest : Octets) : Head :=
  if lead < 0x80 then .scalar (Char.ofNat lead.toNat) 1
  else if lead < 0xC2 then .invalid 1
  else if lead < 0xE0 then headOfTwo lead rest
  else if lead < 0xF0 then headOfThree lead rest
  else if lead < 0xF5 then headOfFour lead rest
  else .invalid 1

/-- The first fault of a text that is not well-formed UTF-8. -/
inductive Fault where
  /-- `width` octets from `index` on start no character. -/
  | invalid (width index : Nat)
  /-- The text ends inside the character that starts at `index`. -/
  | incomplete (index : Nat)
  deriving Repr, DecidableEq

/-- How a fault is reported. -/
def Fault.message : Fault → String
  | .invalid width index => s!"invalid utf-8 sequence of {width} bytes from index {index}"
  | .incomplete index => s!"incomplete utf-8 byte sequence from index {index}"

/-- Reads characters from position `index` on; `before` holds those read already,
the last one first, and `skip` octets still belong to it. -/
def decodeFrom (index skip : Nat) (before : List Char) : Octets → Except Fault (List Char)
  | [] => .ok before.reverse
  | lead :: rest =>
    match skip with
    | skip + 1 => decodeFrom (index + 1) skip before rest
    | 0 =>
      match head lead rest with
      | .scalar c width => decodeFrom (index + 1) (width - 1) (c :: before) rest
      | .invalid width => .error (.invalid width index)
      | .incomplete => .error (.incomplete index)

/-- The text of well-formed octets, or their first fault. -/
def decode (octets : Octets) : Except Fault String :=
  (decodeFrom 0 0 [] octets).map String.ofList

/-- Reads characters, with `none` for each fault; `before` holds what was read
already, the last symbol first, and `skip` octets still belong to it. -/
def symbolsFrom (skip : Nat) (before : List (Option Char)) : Octets → List (Option Char)
  | [] => before.reverse
  | lead :: rest =>
    match skip with
    | skip + 1 => symbolsFrom skip before rest
    | 0 =>
      match head lead rest with
      | .scalar c width => symbolsFrom (width - 1) (some c :: before) rest
      | .invalid width => symbolsFrom (width - 1) (none :: before) rest
      | .incomplete => symbolsFrom rest.length (none :: before) rest

/-- The characters of a text, with `none` where its octets are not well formed. -/
def decodeWithHoles (octets : Octets) : List (Option Char) :=
  symbolsFrom 0 [] octets

/-- The octets of a text. -/
def encode (s : String) : Octets :=
  s.toUTF8.data.toList

/-- The number of octets of characters. -/
def size (chars : List Char) : Nat :=
  chars.foldl (fun n c => n + c.utf8Size) 0

end Utf8

end EvidenceSynthesis.Text
