import EvidenceSynthesis.Evidence.Kind
import EvidenceSynthesis.Text.Uppercase

/-!
# Call signatures

A call signature is a dotted qualifier that ends in the name of a method, followed by
the argument types between parentheses: `java.util.List.add(java.lang.Object)`.  Each
kind of evidence has its own extractor; all of them are total, whatever the text.
-/

namespace EvidenceSynthesis.Call

/-- What stands before the first opening parenthesis. -/
def qualifier (call : List Char) : List Char :=
  call.takeWhile (· != '(')

/-- The segments of the qualifier, between dots. -/
def segments (call : List Char) : List (List Char) :=
  (qualifier call).splitOn '.'

/-! ### Method names -/

/-- The name of the method, unless it is the name of the class in front of it, as for
constructors. -/
def methodNames (call : List Char) : List (List Char) :=
  match (segments call).reverse with
  | [] => []
  | [name] => if name.isEmpty then [] else [name]
  | name :: owner :: _ => if name.isEmpty || owner == name then [] else [name]

/-! ### Class names -/

/-- Whether the first character of a segment is uppercase. -/
def isCapitalized (segment : List Char) : Bool :=
  segment.head?.any Text.isUppercase

/-- The last two items of a list, or as many as there are. -/
def lastTwo {α : Type} (items : List α) : List α :=
  items.drop (items.length - 2)

/-- The last two capitalized segments in front of the name of the method. -/
def classNames (call : List Char) : List (List Char) :=
  lastTwo ((segments call).dropLast.filter isCapitalized)

/-! ### Argument types -/

/-- What stands between the first opening parenthesis and the next parenthesis. -/
def arguments? (call : List Char) : Option (List Char) :=
  match call.dropWhile (· != '(') with
  | [] => none
  | _ :: rest => some (rest.takeWhile fun c => c != '(' && c != ')')

/-- Removes the pairs of brackets that are found from left to right. -/
def withoutBrackets : List Char → List Char
  | '[' :: ']' :: rest => withoutBrackets rest
  | c :: rest => c :: withoutBrackets rest
  | [] => []

/-- The name of an argument type without its package, type arguments and array
markers. -/
def simpleName (argument : List Char) : List Char :=
  let last := ((argument.splitOn '.').getLast?).getD []
  withoutBrackets (last.takeWhile (· != '<'))

/-- The simple names of the arguments, without those that are empty. -/
def argumentNames (call : List Char) : List (List Char) :=
  match arguments? call with
  | none => []
  | some arguments => ((arguments.splitOn ',').map simpleName).filter fun name => !name.isEmpty

end Call

/-- The tokens of a kind that a call yields, in the order of the signature. -/
def Kind.extract (kind : Kind) (call : String) : List String :=
  let chars := call.toList
  let names :=
    match kind with
    | .apiCalls => Call.methodNames chars
    | .types => Call.classNames chars
    | .context => Call.argumentNames chars
  names.map String.ofList

end EvidenceSynthesis
