import EvidenceSynthesis.Text.Numerals
import EvidenceSynthesis.Word

/-!
# Assignments

A text of settings assigns integers to keys, one on each line: `key = integer`.  Blank
lines and comments after `#` are passed over.  A key is bare or quoted; an integer is
decimal with an optional sign, or unsigned in base sixteen, eight or two, and its
digits may be set apart by single underscores.  Each key is assigned once.
-/

namespace EvidenceSynthesis

/-- Integers assigned to keys. -/
abbrev Assignments := List (String × Int)

namespace Assignments

/-- Whether a character is a blank within a line. -/
def isBlank (c : Char) : Bool :=
  c == ' ' || c == '\t'

/-- Whether a character may stand in a comment. -/
def isCommentChar (c : Char) : Bool :=
  c == '\t' || (0x20 ≤ c.toNat && c.toNat != 0x7F)

/-- The rest of a line after its blanks. -/
def skipBlanks (chars : List Char) : List Char :=
  chars.dropWhile isBlank

/-- Whether a line ends here, maybe with a comment. -/
def isEnd (chars : List Char) : Bool :=
  match skipBlanks chars with
  | [] => true
  | '#' :: comment => comment.all isCommentChar
  | _ => false

/-! ### Keys -/

/-- Whether a character may stand in a bare key. -/
def isBareChar (c : Char) : Bool :=
  c.isAlphanum || c == '-' || c == '_'

/-- The character of a short escape. -/
def escaped? (c : Char) : Option Char :=
  match c with
  | 'b' => some '\x08'
  | 't' => some '\t'
  | 'n' => some '\n'
  | 'f' => some '\x0c'
  | 'r' => some '\r'
  | '"' => some '"'
  | '\\' => some '\\'
  | _ => none

/-- The character whose number is written in base sixteen. -/
def numbered? (digits : List Char) : Option Char :=
  ((Text.digits? 16 digits).filter fun n => decide n.isValidChar).map Char.ofNat

/-- A quoted key with escapes up to its closing quote, and the rest; `before` holds the
characters so far, the last one first. -/
def takeQuoted? (before : List Char) : List Char → Option (List Char × List Char)
  | '"' :: rest => some (before.reverse, rest)
  | '\\' :: 'u' :: a :: b :: c :: d :: rest =>
    (numbered? [a, b, c, d]).bind fun e => takeQuoted? (e :: before) rest
  | '\\' :: 'U' :: a :: b :: c :: d :: e :: f :: g :: h :: rest =>
    (numbered? [a, b, c, d, e, f, g, h]).bind fun i => takeQuoted? (i :: before) rest
  | '\\' :: c :: rest => (escaped? c).bind fun d => takeQuoted? (d :: before) rest
  | c :: rest => if isCommentChar c then takeQuoted? (c :: before) rest else none
  | [] => none

/-- A key in front of a line, and the rest. -/
def takeKey? : List Char → Option (List Char × List Char)
  | '"' :: rest => takeQuoted? [] rest
  | '\'' :: rest =>
    let (key, rest) := rest.span fun c => c != '\'' && isCommentChar c
    match rest with
    | '\'' :: rest => some (key, rest)
    | _ => none
  | chars =>
    let (key, rest) := chars.span isBareChar
    if key.isEmpty then none else some (key, rest)

/-! ### Integers -/

/-- The digits without the underscores between them; none if an underscore stands
elsewhere. -/
def joinDigits? (chars : List Char) : Option (List Char) :=
  let groups := chars.splitOn '_'
  if groups.any List.isEmpty then none else some groups.flatten

/-- The number that digits write in a base. -/
def unsigned? (base : Nat) (chars : List Char) : Option Nat :=
  (joinDigits? chars).bind (Text.digits? base)

/-- The number that decimal digits write, where no zero leads others. -/
def decimal? (chars : List Char) : Option Nat :=
  if chars.head? = some '0' ∧ chars.length ≠ 1 then none else unsigned? 10 chars

/-- The integer of a signed 64-bit word that characters write. -/
def integer? (chars : List Char) : Option Int :=
  let value? : Option Int :=
    match chars with
    | '0' :: 'x' :: digits => (unsigned? 16 digits).map Int.ofNat
    | '0' :: 'o' :: digits => (unsigned? 8 digits).map Int.ofNat
    | '0' :: 'b' :: digits => (unsigned? 2 digits).map Int.ofNat
    | '-' :: digits => (decimal? digits).map fun n => -(n : Int)
    | '+' :: digits => (decimal? digits).map Int.ofNat
    | digits => (decimal? digits).map Int.ofNat
  value?.filter fun n => -(Word.bound63 : Int) ≤ n && n < Word.bound63

/-! ### Lines -/

/-- What a line assigns, if anything. -/
def line? (chars : List Char) : Option (Option (String × Int)) :=
  if isEnd chars then some none
  else do
    let (key, rest) ← takeKey? (skipBlanks chars)
    match skipBlanks rest with
    | '=' :: rest =>
      let (digits, rest) := (skipBlanks rest).span fun c => !isBlank c && c != '#'
      let n ← integer? digits
      if isEnd rest then some (some (String.ofList key, n)) else none
    | _ => none

/-- The text without a mark of the byte order in front. -/
def dropMark : List Char → List Char
  | '\uFEFF' :: rest => rest
  | chars => chars

/-- A line without the carriage return that belongs to its end. -/
def dropReturn (chars : List Char) : List Char :=
  if chars.getLast? = some '\r' then chars.dropLast else chars

/-- The lines of a text; of a carriage return and a line feed both end a line. -/
def lines (chars : List Char) : List (List Char) :=
  let pieces := chars.splitOn '\n'
  pieces.dropLast.map dropReturn ++ pieces.drop (pieces.length - 1)

/-- The assignments of a text. -/
def ofText? (s : String) : Option Assignments := do
  let found ← (lines (dropMark s.toList)).mapM line?
  let assignments := found.filterMap id
  if (assignments.map (·.1)).Nodup then some assignments else none

end Assignments

end EvidenceSynthesis
