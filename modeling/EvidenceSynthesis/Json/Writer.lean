import EvidenceSynthesis.Json.Value
import EvidenceSynthesis.Decimal.Shortest
import EvidenceSynthesis.Text.Utf8

/-!
# Writing JSON values

A value is written compactly, without a blank, or laid out with two spaces for each
level and one line for each item and member.  Empty arrays and objects stand on one
line in both forms.  The two forms are styles of one writer.

In strings only the quote, the backslash and the control characters below the space
are escaped.

How long the text of a value is can be told without writing it: `Value.writtenSize`
counts its octets.
-/

namespace EvidenceSynthesis.Json

/-- One character inside a written string. -/
def writtenChar (c : Char) : List Char :=
  match c with
  | '"' => ['\\', '"']
  | '\\' => ['\\', '\\']
  | '\x08' => ['\\', 'b']
  | '\x0c' => ['\\', 'f']
  | '\n' => ['\\', 'n']
  | '\r' => ['\\', 'r']
  | '\t' => ['\\', 't']
  | c =>
    if c.toNat < 0x20 then
      ['\\', 'u', '0', '0', Nat.digitChar (c.toNat / 16), Nat.digitChar (c.toNat % 16)]
    else
      [c]

/-- A string as it is written. -/
def writtenString (s : String) : List Char :=
  '"' :: (s.toList.flatMap writtenChar ++ ['"'])

namespace Value

/-- A value without parts as it is written; arrays and objects are left to the layout. -/
def writtenLeaf : Value → List Char
  | null => ['n', 'u', 'l', 'l']
  | bool true => ['t', 'r', 'u', 'e']
  | bool false => ['f', 'a', 'l', 's', 'e']
  | integer n => (toString n).toList
  | float x => x.text.toList
  | string s => writtenString s
  | array _ => []
  | object _ => []

end Value

/-! ### Styles -/

/-- How the parts of a value are set apart. -/
inductive Style where
  /-- Not at all. -/
  | compact
  /-- By lines of their own, with so many spaces for each level. -/
  | lines (indent : Nat)
  deriving Repr, DecidableEq

namespace Style

/-- What stands in front of a part at a level. -/
def lineBreak : Style → Nat → List Char
  | compact, _ => []
  | lines indent, level => '\n' :: List.replicate (indent * level) ' '

/-- What stands between a colon and a value. -/
def gap : Style → List Char
  | compact => []
  | lines _ => [' ']

/-- The number of octets in front of a part at a level. -/
def breakSize : Style → Nat → Nat
  | compact, _ => 0
  | lines indent, level => indent * level + 1

end Style

namespace Value

mutual

/-- The value in a style, and `rest` behind it.  The lines inside it stand below
`level`. -/
def written (style : Style) (level : Nat) : Value → List Char → List Char
  | array [], rest => '[' :: ']' :: rest
  | array items, rest =>
    '[' :: writtenItems style (level + 1) items (style.lineBreak level ++ ']' :: rest)
  | object [], rest => '\x7b' :: '\x7d' :: rest
  | object members, rest =>
    '\x7b' :: writtenMembers style (level + 1) members (style.lineBreak level ++ '\x7d' :: rest)
  | leaf, rest => leaf.writtenLeaf ++ rest

/-- Items with commas between them. -/
def writtenItems (style : Style) (level : Nat) : List Value → List Char → List Char
  | [], rest => rest
  | [item], rest => style.lineBreak level ++ written style level item rest
  | item :: others, rest =>
    style.lineBreak level ++
      written style level item (',' :: writtenItems style level others rest)

/-- Members with commas between them. -/
def writtenMembers (style : Style) (level : Nat) :
    List (String × Value) → List Char → List Char
  | [], rest => rest
  | [(name, value)], rest =>
    style.lineBreak level ++
      (writtenString name ++ ':' :: (style.gap ++ written style level value rest))
  | (name, value) :: others, rest =>
    style.lineBreak level ++
      (writtenString name ++
        ':' :: (style.gap ++
          written style level value (',' :: writtenMembers style level others rest)))

end

/-- The text of a value without a blank. -/
def compact (value : Value) : String :=
  String.ofList (value.written .compact 0 [])

/-- The style of a text that is laid out over lines. -/
def prettyStyle : Style := .lines 2

/-- The text of a value laid out over lines. -/
def pretty (value : Value) : String :=
  String.ofList (value.written prettyStyle 0 [])

/-! ### Sizes -/

mutual

/-- The number of octets of the value in a style. -/
def writtenSize (style : Style) (level : Nat) : Value → Nat
  | array [] => 2
  | array items => 2 + writtenItemsSize style (level + 1) items + style.breakSize level
  | object [] => 2
  | object members => 2 + writtenMembersSize style (level + 1) members + style.breakSize level
  | leaf => Text.Utf8.size leaf.writtenLeaf

/-- The number of octets of items with commas between them. -/
def writtenItemsSize (style : Style) (level : Nat) : List Value → Nat
  | [] => 0
  | [item] => style.breakSize level + writtenSize style level item
  | item :: others =>
    style.breakSize level + writtenSize style level item + 1 +
      writtenItemsSize style level others

/-- The number of octets of members with commas between them. -/
def writtenMembersSize (style : Style) (level : Nat) : List (String × Value) → Nat
  | [] => 0
  | [(name, value)] =>
    style.breakSize level + Text.Utf8.size (writtenString name) + 1 + style.gap.length +
      writtenSize style level value
  | (name, value) :: others =>
    style.breakSize level + Text.Utf8.size (writtenString name) + 1 + style.gap.length +
      writtenSize style level value + 1 + writtenMembersSize style level others

end

/-- The number of octets of the text of a value laid out over lines. -/
def prettySize (value : Value) : Nat :=
  value.writtenSize prettyStyle 0

end Value

end EvidenceSynthesis.Json
