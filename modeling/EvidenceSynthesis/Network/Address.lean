import EvidenceSynthesis.Failure
import EvidenceSynthesis.Text.Numerals
import EvidenceSynthesis.Word

/-!
# Socket addresses

An address names a host, by four octets or by eight groups of sixteen bits, and a service
there by its number.  It is read from its standard text, or from a host in one of the
older numeric forms and a number behind the last colon.
-/

namespace EvidenceSynthesis.Network

/-- The address of a host. -/
inductive Host where
  /-- Four octets. -/
  | v4 (a b c d : UInt8)
  /-- Eight groups, and the zone in which they are valid. -/
  | v6 (groups : Vector UInt16 8) (zone : UInt32)
  deriving Repr, DecidableEq

/-- A host and the number of a service. -/
structure Address where
  host : Host
  service : UInt16
  deriving Repr, DecidableEq

namespace Host

/-! ### Reading -/

/-- The octet that digits write without a leading zero. -/
def octet? (chars : List Char) : Option UInt8 :=
  if chars.length ≤ 3 ∧ (chars.head? ≠ some '0' ∨ chars.length = 1) then
    ((Text.digits? 10 chars).filter (· < Word.bound8)).map UInt8.ofNat
  else
    none

/-- The four octets of a dotted text. -/
def octets? (chars : List Char) : Option (UInt8 × UInt8 × UInt8 × UInt8) :=
  match (chars.splitOn '.').mapM octet? with
  | some [a, b, c, d] => some (a, b, c, d)
  | _ => none

/-- The number of a part of an older form: decimal, octal after a zero, or in base
sixteen. -/
def part? (chars : List Char) : Option Nat :=
  match chars with
  | '0' :: 'x' :: digits | '0' :: 'X' :: digits => Text.digits? 16 digits
  | ['0'] => some 0
  | '0' :: digits => Text.digits? 8 digits
  | digits => Text.digits? 10 digits

/-- The number of a host of up to four parts, the last of which fills what the others
leave. -/
def number? : List Nat → Option Nat
  | [a] => if a < Word.bound32 then some a else none
  | [a, b] =>
    if a < Word.bound8 ∧ b < Word.bound24 then some (a * Word.bound24 + b) else none
  | [a, b, c] =>
    if a < Word.bound8 ∧ b < Word.bound8 ∧ c < Word.bound16 then
      some (a * Word.bound24 + b * Word.bound16 + c)
    else none
  | [a, b, c, d] =>
    if a < Word.bound8 ∧ b < Word.bound8 ∧ c < Word.bound8 ∧ d < Word.bound8 then
      some (a * Word.bound24 + b * Word.bound16 + c * Word.bound8 + d)
    else none
  | _ => none

/-- The host of a number of 32 bits. -/
def ofNumber (n : Nat) : Host :=
  .v4 (UInt8.ofNat (n / Word.bound24)) (UInt8.ofNat (n / Word.bound16))
    (UInt8.ofNat (n / Word.bound8)) (UInt8.ofNat n)

/-- The host of an older numeric form. -/
def ofParts? (chars : List Char) : Option Host :=
  (((chars.splitOn '.').mapM part?).bind number?).map ofNumber

/-- The group that up to four digits in base sixteen write. -/
def group? (chars : List Char) : Option UInt16 :=
  if chars.length ≤ 4 then (Text.digits? 16 chars).map UInt16.ofNat else none

/-- Two groups of four octets. -/
def groupsOfOctets (a b c d : UInt8) : List UInt16 :=
  [a.toUInt16 * 256 + b.toUInt16, c.toUInt16 * 256 + d.toUInt16]

/-- The groups of pieces between colons; the last piece may be a dotted text, if that is
allowed. -/
def groupsOfPieces? (dotted : Bool) : List (List Char) → Option (List UInt16)
  | [] => some []
  | [piece] =>
    match group? piece with
    | some group => some [group]
    | none =>
      if dotted then (octets? piece).map fun (a, b, c, d) => groupsOfOctets a b c d else none
  | piece :: rest => do
    let group ← group? piece
    let groups ← groupsOfPieces? dotted rest
    return group :: groups

/-- The groups of a text, which may be empty. -/
def groups? (dotted : Bool) (chars : List Char) : Option (List UInt16) :=
  if chars.isEmpty then some [] else groupsOfPieces? dotted (chars.splitOn ':')

/-- Splits a text at its first double colon. -/
def splitGap? (before : List Char) : List Char → Option (List Char × List Char)
  | ':' :: ':' :: rest => some (before.reverse, rest)
  | c :: rest => splitGap? (c :: before) rest
  | [] => none

/-- The eight groups of a text, where a double colon stands for one or more groups of
zero. -/
def allGroups? (chars : List Char) : Option (Vector UInt16 8) :=
  let groups? :=
    match splitGap? [] chars with
    | none => groups? true chars
    | some (front, back) => do
      let front ← groups? false front
      let back ← groups? true back
      if front.length + back.length < 8 then
        some (front ++ List.replicate (8 - front.length - back.length) 0 ++ back)
      else none
  groups?.bind fun groups =>
    if h : groups.toArray.size = 8 then some ⟨groups.toArray, h⟩ else none

/-- The host of eight groups and maybe a zone. -/
def ofGroups? (chars : List Char) : Option Host :=
  match chars.span (· != '%') with
  | (groups, []) => (allGroups? groups).map fun g => .v6 g 0
  | (groups, _ :: zone) => do
    let groups ← allGroups? groups
    let zone ← (Text.digits? 10 zone).filter (· < Word.bound32)
    return .v6 groups (UInt32.ofNat zone)

/-! ### Writing -/

/-- The text of four octets. -/
def dottedText (a b c d : UInt8) : String :=
  s!"{a}.{b}.{c}.{d}"

/-- The number of zeros in front of a list. -/
def leadingZeros (groups : List UInt16) : Nat :=
  (groups.takeWhile (· == 0)).length

/-- The place and length of the longest run of zeros, the first one of several. -/
def longestGap (place : Nat) (best : Nat × Nat) : List UInt16 → Nat × Nat
  | [] => best
  | group :: rest =>
    let length := leadingZeros (group :: rest)
    longestGap (place + 1) (if best.2 < length then (place, length) else best) rest

/-- Groups with colons between them. -/
def colonText (groups : List UInt16) : String :=
  ":".intercalate (groups.map fun g => String.ofList (Nat.toDigits 16 g.toNat))

/-- The short text of eight groups: the longest run of two or more zeros is left out,
and four octets that are mapped into groups are dotted. -/
def groupText (groups : List UInt16) : String :=
  match groups with
  | [0, 0, 0, 0, 0, 0xFFFF, high, low] =>
    "::ffff:" ++ dottedText (high / 256).toUInt8 high.toUInt8 (low / 256).toUInt8 low.toUInt8
  | _ =>
    let (place, length) := longestGap 0 (0, 0) groups
    if 2 ≤ length then
      colonText (groups.take place) ++ "::" ++ colonText (groups.drop (place + length))
    else
      colonText groups

/-- Whether the host is the machine itself. -/
def isLoopback : Host → Bool
  | .v4 a _ _ _ => a == 127
  | .v6 groups _ => groups.toList == [0, 0, 0, 0, 0, 0, 0, 1]

end Host

namespace Address

/-- The number of a service that digits write. -/
def service? (chars : List Char) : Option UInt16 :=
  ((Text.digits? 10 chars).filter (· < Word.bound16)).map UInt16.ofNat

/-- Splits a text at its last colon. -/
def splitService? (chars : List Char) : Option (List Char × List Char) :=
  match chars.reverse.span (· != ':') with
  | (service, _ :: host) => some (host.reverse, service.reverse)
  | _ => none

/-- The address of a standard text: dotted octets or groups in brackets, and a number. -/
def standard? (chars : List Char) : Option Address := do
  let (host, service) ← splitService? chars
  let service ← service? service
  match host with
  | '[' :: rest =>
    if rest.getLast? = some ']' then
      let host ← Host.ofGroups? rest.dropLast
      return ⟨host, service⟩
    else none
  | _ =>
    let (a, b, c, d) ← Host.octets? host
    return ⟨.v4 a b c d, service⟩

/-- The address of an older form: a numeric host of any kind without brackets, and a number
that may have a plus in front. -/
def older? (chars : List Char) : Option Address := do
  let (host, service) ← splitService? chars
  let service ← Text.word? Word.bound16 service
  let host ← (Host.ofParts? host).or (Host.ofGroups? host)
  return ⟨host, UInt16.ofNat service⟩

/-- The address of a text. -/
def ofText? (s : String) : Option Address :=
  (standard? s.toList).or (older? s.toList)

/-- The text of an address. -/
def text (address : Address) : String :=
  match address.host with
  | .v4 a b c d => s!"{Host.dottedText a b c d}:{address.service}"
  | .v6 groups zone =>
    let zoneText := if zone = 0 then "" else s!"%{zone}"
    s!"[{Host.groupText groups.toList}{zoneText}]:{address.service}"

/-- Whether the host is given by four octets. -/
def isV4 (address : Address) : Bool :=
  match address.host with
  | .v4 _ _ _ _ => true
  | .v6 _ _ => false

/-- The address on which a server listens, given what its text stands for.  Only a public
server may listen on others than the machine itself.  Of several addresses one of four
octets is preferred. -/
def listenOn (bind : String) (isPublic : Bool) :
    Option (List Address) → Except Failure Address
  | none => .error (.of s!"Failed to resolve listen address {bind}")
  | some addresses =>
    match addresses.find? fun address => !isPublic && !address.host.isLoopback with
    | some exposed =>
      .error (.of <|
        s!"Refusing to listen on {exposed.text} (from {bind}) without --public: " ++
          "requests are not authenticated")
    | none =>
      match (addresses.find? isV4).or addresses.head? with
      | some address => .ok address
      | none => .error (.of s!"{bind} resolved to no addresses")

/-- What a text stands for if it holds no name. -/
def numeric? (s : String) : Option (List Address) :=
  (ofText? s).map fun address => [address]

/-- The address on which a server listens, where no names are known. -/
def listen (bind : String) (isPublic : Bool) : Except Failure Address :=
  listenOn bind isPublic (numeric? bind)

end Address

end EvidenceSynthesis.Network
