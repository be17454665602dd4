import EvidenceSynthesis.Json.Numeral
import EvidenceSynthesis.Text.Numerals
import EvidenceSynthesis.Text.Utf8

/-!
# JSON documents

A document is a JSON text as it is written: every member of an object is kept, also
under a name that occurs again; numerals are kept digit by digit; and a string that
spells no text, because of a lone surrogate or of octets that are not UTF-8, is kept
as such.  Nesting has no limit here.

The text is read by two machines, one symbol and one token at a time: the first
gathers characters to tokens, the second nests tokens.
-/

namespace EvidenceSynthesis.Json

open EvidenceSynthesis.Text (Octets)

/-- A part of a document without parts: a literal, a numeral, or a string, which is
`none` if it spells no text. -/
inductive Scalar where
  | null
  | bool (b : Bool)
  | numeral (numeral : Numeral)
  | text (content : Option String)
  deriving Repr, DecidableEq

/-- A JSON text as it is written. -/
inductive Document where
  | scalar (leaf : Scalar)
  | array (items : List Document)
  | object (members : List (Option String × Document))

/-! ### Strings -/

/-- A piece of a string: a character, a UTF-16 unit that is written in hexadecimal, or
octets that are not UTF-8. -/
inductive Piece where
  | char (c : Char)
  | unit (code : Nat)
  | hole
  deriving Repr, DecidableEq

namespace Piece

/-- Whether a unit is the first half of a surrogate pair. -/
def isHighSurrogate (code : Nat) : Bool :=
  0xD800 ≤ code && code ≤ 0xDBFF

/-- Whether a unit is the second half of a surrogate pair. -/
def isLowSurrogate (code : Nat) : Bool :=
  0xDC00 ≤ code && code ≤ 0xDFFF

/-- The character of a surrogate pair. -/
def pairChar (high low : Nat) : Char :=
  Char.ofNat ((high - 0xD800) * 0x400 + (low - 0xDC00) + 0x10000)

/-- The text that the pieces spell; `before` holds the characters so far, the last one
first. -/
def spell (before : List Char) : List Piece → Option (List Char)
  | [] => some before.reverse
  | .char c :: rest => spell (c :: before) rest
  | .hole :: _ => none
  | .unit high :: .unit low :: rest =>
    if isHighSurrogate high then
      if isLowSurrogate low then spell (pairChar high low :: before) rest else none
    else if isLowSurrogate high then none
    else spell (Char.ofNat high :: before) (.unit low :: rest)
  | .unit code :: rest =>
    if isHighSurrogate code || isLowSurrogate code then none
    else spell (Char.ofNat code :: before) rest

/-- The text that the pieces of a string spell, if they spell one. -/
def text? (pieces : List Piece) : Option String :=
  (spell [] pieces).map String.ofList

end Piece

/-! ### Tokens -/

/-- A token of a document. -/
inductive Token where
  | openArray
  | closeArray
  | openObject
  | closeObject
  | comma
  | colon
  | scalar (leaf : Scalar)
  deriving Repr, DecidableEq

namespace Token

/-- Whether a character may stand between tokens. -/
def isSeparator (c : Char) : Bool :=
  c == ' ' || c == '\t' || c == '\n' || c == '\r'

/-- Whether a character may stand within a numeral. -/
def isNumeralChar (c : Char) : Bool :=
  c.isDigit || c == '-' || c == '+' || c == '.' || c == 'e' || c == 'E'

/-- What the machine is inside of; what it has gathered there stands with the last
one first. -/
inductive Mode where
  | between
  | word (before : List Char)
  | numeral (before : List Char)
  | text (before : List Piece)
  | escape (before : List Piece)
  | unit (before : List Piece) (digits code : Nat)

/-- The tokens so far, the last one first, and what the machine is inside of. -/
structure Machine where
  before : List Token
  mode : Mode

/-- The token of a word. -/
def ofWord? (chars : List Char) : Option Token :=
  if chars = ['n', 'u', 'l', 'l'] then some (.scalar .null)
  else if chars = ['t', 'r', 'u', 'e'] then some (.scalar (.bool true))
  else if chars = ['f', 'a', 'l', 's', 'e'] then some (.scalar (.bool false))
  else none

/-- The token of a numeral. -/
def ofNumeral? (chars : List Char) : Option Token :=
  (Numeral.ofChars? chars).map fun numeral => .scalar (.numeral numeral)

/-- What a character does between tokens. -/
def start? (before : List Token) (c : Char) : Option Machine :=
  if isSeparator c then some ⟨before, .between⟩
  else if c == '[' then some ⟨.openArray :: before, .between⟩
  else if c == ']' then some ⟨.closeArray :: before, .between⟩
  else if c == '\x7b' then some ⟨.openObject :: before, .between⟩
  else if c == '\x7d' then some ⟨.closeObject :: before, .between⟩
  else if c == ',' then some ⟨.comma :: before, .between⟩
  else if c == ':' then some ⟨.colon :: before, .between⟩
  else if c == '"' then some ⟨before, .text []⟩
  else if c == '-' || c.isDigit then some ⟨before, .numeral [c]⟩
  else if c.isLower then some ⟨before, .word [c]⟩
  else none

/-- The character of a short escape. -/
def escaped? (c : Char) : Option Char :=
  match c with
  | '"' => some '"'
  | '\\' => some '\\'
  | '/' => some '/'
  | 'b' => some '\x08'
  | 'f' => some '\x0c'
  | 'n' => some '\n'
  | 'r' => some '\r'
  | 't' => some '\t'
  | _ => none

/-- What one symbol does; `none` stands for octets that are not UTF-8, which may occur
within a string only. -/
def step? (machine : Machine) (symbol : Option Char) : Option Machine :=
  match machine.mode, symbol with
  | .between, some c => start? machine.before c
  | .word chars, some c =>
    if c.isLower then some ⟨machine.before, .word (c :: chars)⟩
    else (ofWord? chars.reverse).bind fun token => start? (token :: machine.before) c
  | .numeral chars, some c =>
    if isNumeralChar c then some ⟨machine.before, .numeral (c :: chars)⟩
    else (ofNumeral? chars.reverse).bind fun token => start? (token :: machine.before) c
  | .text pieces, some c =>
    if c == '"' then
      some ⟨.scalar (.text (Piece.text? pieces.reverse)) :: machine.before, .between⟩
    else if c == '\\' then some ⟨machine.before, .escape pieces⟩
    else if c.toNat < 0x20 then none
    else some ⟨machine.before, .text (.char c :: pieces)⟩
  | .text pieces, none => some ⟨machine.before, .text (.hole :: pieces)⟩
  | .escape pieces, some c =>
    if c == 'u' then some ⟨machine.before, .unit pieces 0 0⟩
    else (escaped? c).map fun d => ⟨machine.before, .text (.char d :: pieces)⟩
  | .unit pieces digits code, some c =>
    (Text.digit? 16 c).map fun value =>
      let code := 16 * code + value
      if digits = 3 then ⟨machine.before, .text (.unit code :: pieces)⟩
      else ⟨machine.before, .unit pieces (digits + 1) code⟩
  | _, none => none

/-- The tokens once the text has ended. -/
def finish? (machine : Machine) : Option (List Token) :=
  match machine.mode with
  | .between => some machine.before.reverse
  | .word chars => (ofWord? chars.reverse).map fun token => (token :: machine.before).reverse
  | .numeral chars =>
    (ofNumeral? chars.reverse).map fun token => (token :: machine.before).reverse
  | _ => none

/-- The tokens of a text. -/
def read? (symbols : List (Option Char)) : Option (List Token) :=
  (symbols.foldlM step? ⟨[], .between⟩).bind finish?

end Token

/-! ### Nesting -/

namespace Document

/-- An array or object that is still open; its parts stand with the last one first. -/
inductive Frame where
  | items (before : List Document)
  | member (before : List (Option String × Document)) (name : Option String)

/-- What may come next, and what is open around it. -/
inductive Progress where
  /-- A value. -/
  | value (stack : List Frame)
  /-- A first item, or the end of the array. -/
  | firstItem (stack : List Frame)
  /-- A first member, or the end of the object. -/
  | firstMember (stack : List Frame)
  /-- A member. -/
  | nextMember (before : List (Option String × Document)) (stack : List Frame)
  /-- The colon after a name. -/
  | afterName (before : List (Option String × Document)) (name : Option String)
      (stack : List Frame)
  /-- A comma or the end of what is open, after a value. -/
  | afterValue (document : Document) (stack : List Frame)

/-- Begins a value. -/
def begin? (stack : List Frame) : Token → Option Progress
  | .openArray => some (.firstItem stack)
  | .openObject => some (.firstMember stack)
  | .scalar leaf => some (.afterValue (.scalar leaf) stack)
  | _ => none

/-- What one token does. -/
def step? : Progress → Token → Option Progress
  | .value stack, token => begin? stack token
  | .firstItem stack, .closeArray => some (.afterValue (.array []) stack)
  | .firstItem stack, token => begin? (.items [] :: stack) token
  | .firstMember stack, .closeObject => some (.afterValue (.object []) stack)
  | .firstMember stack, .scalar (.text name) => some (.afterName [] name stack)
  | .nextMember before stack, .scalar (.text name) => some (.afterName before name stack)
  | .afterName before name stack, .colon => some (.value (.member before name :: stack))
  | .afterValue document (.items before :: stack), .comma =>
    some (.value (.items (document :: before) :: stack))
  | .afterValue document (.items before :: stack), .closeArray =>
    some (.afterValue (.array (document :: before).reverse) stack)
  | .afterValue document (.member before name :: stack), .comma =>
    some (.nextMember ((name, document) :: before) stack)
  | .afterValue document (.member before name :: stack), .closeObject =>
    some (.afterValue (.object ((name, document) :: before).reverse) stack)
  | _, _ => none

/-- The document that all of the tokens form. -/
def ofTokens? (tokens : List Token) : Option Document :=
  match tokens.foldlM step? (.value []) with
  | some (.afterValue document []) => some document
  | _ => none

/-- The document of a text with holes. -/
def ofSymbols? (symbols : List (Option Char)) : Option Document :=
  (Token.read? symbols).bind ofTokens?

/-- The document of a text. -/
def ofText? (s : String) : Option Document :=
  ofSymbols? (s.toList.map some)

/-- The document of a file. -/
def ofOctets? (octets : Octets) : Option Document :=
  ofSymbols? (Text.Utf8.decodeWithHoles octets)

end Document

end EvidenceSynthesis.Json
