import EvidenceSynthesis.Proofs.Evidence.Qualifiers
import Mathlib

/-!
# Argument types of well-formed signatures

A well-formed signature lists argument types.  A type is a dotted path, which may be followed by
type arguments between angle brackets, types themselves, and by array markers.  Its simple name is
the last segment of its path.

The extractor takes a list of arguments apart at every comma, and of each part it takes the last
segment before it cuts off what follows an opening bracket.  Commas and dots within type arguments
are not told from others.  What it makes of a type is therefore told by a walk through the type
(`ArgumentType.namesRead`): each innermost type argument yields a name, and a type that is opened
leaves a name to what it encloses.

So the simple names come out exactly if every argument is *read whole* (`ArgumentType.IsReadWhole`):
no two type arguments stand side by side, the innermost one is not dotted, and the last dotted one,
if there is any, happens to have the simple name of the argument
(`Call.extract_context_eq_iff`).  Undotted type arguments, one in each list, are therefore removed
as they should be (`ArgumentType.isReadWhole_of_undotted`).
-/

namespace EvidenceSynthesis.Call

/-! ### Signatures -/

/-- The characters that separate or enclose the names of a signature. -/
def isPunctuation (c : Char) : Bool :=
  ['.', ',', '<', '>', '(', ')', '[', ']'].contains c

/-- A parenthesis is punctuation, and none that occurs in a type. -/
theorem punctuation_of_parenthesis {c : Char} (h : c = '(' ∨ c = ')') :
    isPunctuation c = true ∧ c ≠ '.' ∧ c ≠ '[' ∧ c ≠ ']' ∧ c ≠ '<' ∧ c ≠ '>' ∧ c ≠ ',' := by
  rcases h with rfl | rfl <;> decide

/-- A name in a signature: a text that is not empty and has no punctuation. -/
@[ext]
structure Identifier where
  chars : List Char
  ne_nil : chars ≠ [] := by simp
  plain : ∀ c ∈ chars, isPunctuation c = false := by simp [isPunctuation]

/-- A dotted path: the segments in front of the last one, and the last one. -/
structure Path where
  packages : List Identifier
  name : Identifier

/-- The type of an argument: a path, type arguments and a number of array markers. -/
inductive ArgumentType where
  | mk (path : Path) (arguments : List ArgumentType) (dimensions : Nat)

/-- A signature: the path of the owner, the name of the method and the types of the arguments. -/
structure Signature where
  owner : Path
  method : Identifier
  arguments : List ArgumentType

/-- Whether a path has more than one segment. -/
def Path.isDotted (path : Path) : Bool :=
  !path.packages.isEmpty

/-- The text of a path. -/
def Path.text (path : Path) : List Char :=
  (path.packages.flatMap fun segment => segment.chars ++ ['.']) ++ path.name.chars

/-- So many array markers. -/
def brackets : Nat → List Char
  | 0 => []
  | n + 1 => '[' :: ']' :: brackets n

namespace ArgumentType

/-- The path of a type. -/
def path : ArgumentType → Path
  | mk path _ _ => path

mutual

/-- The text of a type. -/
def text : ArgumentType → List Char
  | mk path [] dimensions => path.text ++ brackets dimensions
  | mk path (argument :: others) dimensions =>
    path.text ++ '<' :: (textOfList (argument :: others) ++ '>' :: brackets dimensions)

/-- The text of a list of types. -/
def textOfList : List ArgumentType → List Char
  | [] => []
  | [argument] => argument.text
  | argument :: other :: others => argument.text ++ ',' :: textOfList (other :: others)

end

/-- The simple name of a type. -/
def name (type : ArgumentType) : String :=
  String.ofList type.path.name.chars

end ArgumentType

/-- The text of a signature. -/
def Signature.text (signature : Signature) : String :=
  String.ofList (signature.owner.text ++ '.' :: (signature.method.chars ++
    '(' :: (ArgumentType.textOfList signature.arguments ++ [')'])))

/-! ### What is read of a type -/

/-- The name that is left when a path is opened behind a name that was left before: that of a dotted
path, as its last dot hides what stands in front of it, and otherwise the earlier one, as it is cut
off behind the first bracket. -/
def Path.lead (path : Path) (before : Option Identifier) : Identifier :=
  if path.isDotted then path.name else before.getD path.name

namespace ArgumentType

mutual

/-- What is read of a type, where `before` is the name that is left by what was opened in front of
it, and `closers` is the number of brackets that are closed behind it. -/
def namesRead (before : Option Identifier) (closers : Nat) : ArgumentType → List (List Char)
  | mk path [] _ =>
    match before with
    | some lead =>
      if path.isDotted then [path.name.chars ++ List.replicate closers '>'] else [lead.chars]
    | none => [path.name.chars ++ List.replicate closers '>']
  | mk path (argument :: others) _ =>
    namesReadOfList (some (path.lead before)) (closers + 1) (argument :: others)

/-- What is read of a list of types. -/
def namesReadOfList (before : Option Identifier) (closers : Nat) :
    List ArgumentType → List (List Char)
  | [] => []
  | [argument] => argument.namesRead before closers
  | argument :: other :: others =>
    argument.namesRead before 0 ++ namesReadOfList none closers (other :: others)

end

/-- The paths of the type arguments from the outermost to the innermost one, if no two of them stand
side by side. -/
def inner? : ArgumentType → Option (List Path)
  | mk _ [] _ => some []
  | mk _ [argument] _ => argument.inner?.map (argument.path :: ·)
  | mk _ (_ :: _ :: _) _ => none

/-- No two type arguments stand side by side, the innermost one is not dotted, and the last dotted
one, if there is any, has the same name as the type. -/
def IsReadWhole (type : ArgumentType) : Prop :=
  ∃ inner, type.inner? = some inner ∧
    (∀ path ∈ inner.getLast?, path.isDotted = false) ∧
    ∀ path ∈ (inner.filter Path.isDotted).getLast?, path.name = type.path.name

end ArgumentType

/-! ### Cutting texts -/

section

variable {word rest : List Char}

/-- What has no opening square bracket stands as it is. -/
theorem withoutBrackets_append (h : '[' ∉ word) (rest : List Char) :
    withoutBrackets (word ++ rest) = word ++ withoutBrackets rest := by
  induction word with
  | nil => rfl
  | cons c word ih =>
    rw [List.mem_cons, not_or] at h
    rw [List.cons_append, withoutBrackets, ih h.2, List.cons_append]
    intro _ hc
    exact absurd hc.symm h.1

/-- Array markers are removed. -/
theorem withoutBrackets_brackets (n : Nat) (rest : List Char) :
    withoutBrackets (brackets n ++ rest) = withoutBrackets rest := by
  induction n with
  | zero => rfl
  | succ n ih => rw [brackets, List.cons_append, List.cons_append, withoutBrackets, ih]

/-- What stands in front of a dot is hidden by it. -/
theorem simpleName_append_dot (word rest : List Char) :
    simpleName (word ++ '.' :: rest) = simpleName rest := by
  have hlast : ((word ++ '.' :: rest).splitOn '.').getLast? = (rest.splitOn '.').getLast? := by
    rw [List.splitOn_append_cons_self, List.getLast?_append]
    cases hrest : (rest.splitOn '.').getLast? with
    | none => exact absurd (List.getLast?_eq_none_iff.1 hrest) (List.splitOn_ne_nil _ _)
    | some last => rfl
  simp only [simpleName, hlast]

/-- Without a dot there is one segment, of which what follows an opening bracket is cut off. -/
theorem simpleName_of_not_mem (h : '.' ∉ word) :
    simpleName word = withoutBrackets (word.takeWhile (· != '<')) := by
  simp only [simpleName, List.splitOn_eq_singleton h, List.getLast?_singleton, Option.getD_some]

/-- Without a dot and an opening bracket, only the array markers are removed. -/
theorem simpleName_of_plain (hdot : '.' ∉ word) (hangle : '<' ∉ word) :
    simpleName word = withoutBrackets word := by
  rw [simpleName_of_not_mem hdot, List.takeWhile_eq_self_iff.2]
  intro c hc
  exact bne_iff_ne.2 fun h => hangle (h ▸ hc)

end

namespace Identifier

variable (identifier : Identifier)

/-- No punctuation stands in an identifier. -/
theorem not_mem {c : Char} (h : isPunctuation c = true) : c ∉ identifier.chars := by
  intro hc
  rw [identifier.plain c hc] at h
  cases h

/-- Of a name that is followed by an opening bracket, and no dot, the name is left. -/
theorem simpleName_append_angle {rest : List Char} (h : '.' ∉ rest) :
    simpleName (identifier.chars ++ '<' :: rest) = identifier.chars := by
  have hangle : ∀ c ∈ identifier.chars, (c != '<') = true := fun c hc =>
    bne_iff_ne.2 fun heq => identifier.not_mem (c := '<') rfl (heq ▸ hc)
  have hdot : '.' ∉ identifier.chars ++ '<' :: rest := by
    simp [identifier.not_mem (c := '.') rfl, h]
  have hwithout := withoutBrackets_append (identifier.not_mem (c := '[') rfl) []
  rw [List.append_nil] at hwithout
  rw [simpleName_of_not_mem hdot, List.takeWhile_append_of_pos hangle]
  simpa [withoutBrackets] using hwithout

end Identifier

namespace Path

variable (path : Path)

/-- An undotted path is its only segment. -/
theorem text_of_not_isDotted (h : path.isDotted = false) : path.text = path.name.chars := by
  have hpackages : path.packages = [] := by simpa [isDotted] using h
  rw [text, hpackages]
  rfl

/-- The last segment of a dotted path stands behind a dot. -/
theorem exists_text_of_isDotted (h : path.isDotted = true) :
    ∃ front, path.text = front ++ '.' :: path.name.chars := by
  have hpackages : path.packages ≠ [] := by simpa [isDotted] using h
  obtain ⟨first, last, hlast⟩ := List.eq_nil_or_concat path.packages |>.resolve_left hpackages
  refine ⟨(first.flatMap fun segment => segment.chars ++ ['.']) ++ last.chars, ?_⟩
  rw [text, hlast]
  simp

/-- The only punctuation of a path are its dots. -/
theorem not_mem_text {c : Char} (h : isPunctuation c = true) (hdot : c ≠ '.') : c ∉ path.text := by
  simp [text, path.name.not_mem h, hdot, fun segment : Identifier => segment.not_mem h]

end Path

/-! ### What stands around a type -/

/-- The text that a name leaves when something is opened behind it. -/
def leadText : Option Identifier → List Char
  | none => []
  | some lead => lead.chars ++ ['<']

/-- What stands in front of a type, since the last comma, leaves a name or nothing: whatever
follows, it makes no other difference. -/
structure Opens (before : List Char) (lead : Option Identifier) : Prop where
  comma : ',' ∉ before
  leaves : ∀ rest, simpleName (before ++ rest) = simpleName (leadText lead ++ rest)

/-- What stands behind a type, up to the next comma, closes so many brackets. -/
structure Closes (after : List Char) (closers : Nat) : Prop where
  comma : ',' ∉ after
  dot : '.' ∉ after
  angle : '<' ∉ after
  leaves : withoutBrackets after = List.replicate closers '>'

theorem opens_nil : Opens [] none := ⟨List.not_mem_nil, fun _ => rfl⟩

theorem closes_nil : Closes [] 0 :=
  ⟨List.not_mem_nil, List.not_mem_nil, List.not_mem_nil, rfl⟩

theorem not_mem_brackets {c : Char} (hopen : c ≠ '[') (hclose : c ≠ ']') (n : Nat) :
    c ∉ brackets n := by
  induction n with
  | zero => exact List.not_mem_nil
  | succ n ih => simp [brackets, hopen, hclose, ih]

/-- Opening a path leaves its name or the one that was left before. -/
theorem Opens.open {before : List Char} {lead : Option Identifier} (h : Opens before lead)
    (path : Path) : Opens (before ++ path.text ++ ['<']) (some (path.lead lead)) where
  comma := by simp [h.comma, path.not_mem_text (c := ',') rfl (by decide)]
  leaves rest := by
    rw [List.append_assoc, List.append_assoc, h.leaves, List.singleton_append]
    cases hdotted : path.isDotted with
    | true =>
      obtain ⟨front, hfront⟩ := path.exists_text_of_isDotted hdotted
      have hlead : path.lead lead = path.name := if_pos hdotted
      rw [hfront, hlead, List.append_assoc, List.cons_append, ← List.append_assoc (leadText lead),
        simpleName_append_dot, leadText, List.append_assoc, List.singleton_append]
    | false =>
      have htext := path.text_of_not_isDotted hdotted
      have hlead : path.lead lead = lead.getD path.name := if_neg (by simp [hdotted])
      rw [htext, hlead]
      cases lead with
      | none => simp [leadText]
      | some lead =>
        -- both sides are cut off behind the name, unless a dot follows and hides it
        by_cases hdot : '.' ∈ rest
        · obtain ⟨front, back, rfl⟩ := List.append_of_mem hdot
          have hleft : leadText (some lead) ++ (path.name.chars ++ '<' :: (front ++ '.' :: back)) =
              (leadText (some lead) ++ path.name.chars ++ '<' :: front) ++ '.' :: back := by simp
          have hright : leadText (some lead) ++ (front ++ '.' :: back) =
              (leadText (some lead) ++ front) ++ '.' :: back := by simp
          rw [hleft, Option.getD_some, hright, simpleName_append_dot, simpleName_append_dot]
        · have hbehind : '.' ∉ path.name.chars ++ '<' :: rest := by
            simp [path.name.not_mem (c := '.') rfl, hdot]
          have hleft : leadText (some lead) ++ (path.name.chars ++ '<' :: rest) =
              lead.chars ++ '<' :: (path.name.chars ++ '<' :: rest) := by simp [leadText]
          have hright : leadText (some lead) ++ rest = lead.chars ++ '<' :: rest := by
            simp [leadText]
          rw [hleft, Option.getD_some, hright, lead.simpleName_append_angle hbehind,
            lead.simpleName_append_angle hdot]

/-- Closing a bracket is one more. -/
theorem Closes.close {after : List Char} {closers : Nat} (h : Closes after closers) (n : Nat) :
    Closes ('>' :: (brackets n ++ after)) (closers + 1) where
  comma := by simp [h.comma, not_mem_brackets]
  dot := by simp [h.dot, not_mem_brackets]
  angle := by simp [h.angle, not_mem_brackets]
  leaves := by
    rw [withoutBrackets, withoutBrackets_brackets, h.leaves, List.replicate_succ]
    intro _ hc
    cases hc

/-- A path at the end, behind which brackets are closed, leaves its name and these brackets. -/
theorem Closes.simpleName {after : List Char} {closers : Nat} (h : Closes after closers)
    (identifier : Identifier) (n : Nat) :
    Call.simpleName (identifier.chars ++ (brackets n ++ after)) =
      identifier.chars ++ List.replicate closers '>' := by
  have hdot : '.' ∉ identifier.chars ++ (brackets n ++ after) := by
    simp [identifier.not_mem (c := '.') rfl, h.dot, not_mem_brackets]
  have hangle : '<' ∉ identifier.chars ++ (brackets n ++ after) := by
    simp [identifier.not_mem (c := '<') rfl, h.angle, not_mem_brackets]
  rw [simpleName_of_plain hdot hangle,
    withoutBrackets_append (identifier.not_mem (c := '[') rfl), withoutBrackets_brackets, h.leaves]

namespace ArgumentType

/-- What is read of a path without type arguments. -/
theorem simpleName_leaf {before after : List Char} {lead : Option Identifier} {closers : Nat}
    (hbefore : Opens before lead) (hafter : Closes after closers) (path : Path) (n : Nat) :
    [simpleName (before ++ (path.text ++ brackets n) ++ after)] =
      namesRead lead closers (mk path [] n) := by
  rw [List.append_assoc, hbefore.leaves, List.append_assoc]
  cases hdotted : path.isDotted with
  | true =>
    obtain ⟨front, hfront⟩ := path.exists_text_of_isDotted hdotted
    have htext : leadText lead ++ (path.text ++ (brackets n ++ after)) =
        (leadText lead ++ front) ++ '.' :: (path.name.chars ++ (brackets n ++ after)) := by
      simp [hfront]
    rw [htext, simpleName_append_dot, hafter.simpleName]
    cases lead <;> simp [namesRead, hdotted]
  | false =>
    rw [path.text_of_not_isDotted hdotted]
    cases lead with
    | none => simp [leadText, namesRead, hafter.simpleName]
    | some lead =>
      have hbehind : '.' ∉ path.name.chars ++ (brackets n ++ after) := by
        simp [path.name.not_mem (c := '.') rfl, hafter.dot, not_mem_brackets]
      have htext : leadText (some lead) ++ (path.name.chars ++ (brackets n ++ after)) =
          lead.chars ++ '<' :: (path.name.chars ++ (brackets n ++ after)) := by simp [leadText]
      rw [htext, lead.simpleName_append_angle hbehind]
      simp [namesRead, hdotted]

theorem textOfList_cons_cons (argument other : ArgumentType) (others : List ArgumentType) :
    textOfList (argument :: other :: others) =
      argument.text ++ ',' :: textOfList (other :: others) := rfl

mutual

/-- A type is read as the walk through it says, whatever stands around it. -/
theorem map_simpleName_text : ∀ (type : ArgumentType) {before after : List Char}
    {lead : Option Identifier} {closers : Nat}, Opens before lead → Closes after closers →
      ((before ++ type.text ++ after).splitOn ',').map simpleName = type.namesRead lead closers
  | mk path [] n, before, after, lead, closers, hbefore, hafter => by
    have hcomma : ',' ∉ before ++ (mk path [] n).text ++ after := by
      simp [text, hbefore.comma, hafter.comma, not_mem_brackets,
        path.not_mem_text (c := ',') rfl (by decide)]
    rw [List.splitOn_eq_singleton hcomma, text]
    exact simpleName_leaf hbefore hafter path n
  | mk path (argument :: others) n, before, after, lead, closers, hbefore, hafter => by
    have htext : before ++ (mk path (argument :: others) n).text ++ after =
        (before ++ path.text ++ ['<']) ++ textOfList (argument :: others) ++
          '>' :: (brackets n ++ after) := by simp [text]
    rw [htext, namesRead]
    exact map_simpleName_textOfList (argument :: others) (List.cons_ne_nil _ _)
      (hbefore.open path) (hafter.close n)

/-- A list of types is read type by type: what stands in front of it stands in front of the first
one, and what stands behind it stands behind the last one. -/
theorem map_simpleName_textOfList : ∀ (types : List ArgumentType), types ≠ [] →
    ∀ {before after : List Char} {lead : Option Identifier} {closers : Nat}, Opens before lead →
      Closes after closers →
        ((before ++ textOfList types ++ after).splitOn ',').map simpleName =
          namesReadOfList lead closers types
  | [], h, _, _, _, _, _, _ => absurd rfl h
  | [argument], _, _, _, _, _, hbefore, hafter => map_simpleName_text argument hbefore hafter
  | argument :: other :: others, _, before, after, lead, closers, hbefore, hafter => by
    have htext : before ++ textOfList (argument :: other :: others) ++ after =
        (before ++ argument.text) ++ ',' :: (textOfList (other :: others) ++ after) := by
      simp [textOfList_cons_cons]
    have hfirst := map_simpleName_text argument hbefore closes_nil
    have hothers := map_simpleName_textOfList (other :: others) (List.cons_ne_nil _ _) opens_nil
      hafter
    rw [List.append_nil] at hfirst
    rw [List.nil_append] at hothers
    rw [htext, List.splitOn_append_cons_self, List.map_append, hfirst, hothers, namesReadOfList]

end

/-! ### Names that are read -/

mutual

/-- Something is read of every type. -/
theorem namesRead_ne_nil : ∀ (type : ArgumentType) (before : Option Identifier) (closers : Nat),
    type.namesRead before closers ≠ []
  | mk path [] _, none, _ => by simp [namesRead]
  | mk path [] _, some lead, _ => by
    rw [namesRead]
    split <;> exact List.cons_ne_nil _ _
  | mk path (argument :: others) _, before, closers => by
    rw [namesRead]
    exact namesReadOfList_ne_nil argument others _ _

/-- From at least one argument at least one name is read. -/
theorem namesReadOfList_ne_nil : ∀ (argument : ArgumentType) (others : List ArgumentType)
    (before : Option Identifier) (closers : Nat),
      namesReadOfList before closers (argument :: others) ≠ []
  | argument, [], before, closers => namesRead_ne_nil argument before closers
  | argument, other :: others, before, closers => by
    rw [namesReadOfList]
    exact List.append_ne_nil_of_left_ne_nil (namesRead_ne_nil argument before 0) _

end

mutual

/-- What is read of a type is a name with some of the brackets that are closed behind it. -/
theorem exists_of_mem_namesRead : ∀ (type : ArgumentType) {before : Option Identifier}
    {closers : Nat} {name : List Char}, name ∈ type.namesRead before closers →
      ∃ (identifier : Identifier) (n : Nat), name = identifier.chars ++ List.replicate n '>'
  | mk path [] _, none, closers, name, h => ⟨path.name, closers, List.mem_singleton.1 h⟩
  | mk path [] _, some lead, closers, name, h => by
    rw [namesRead] at h
    split at h
    · exact ⟨path.name, closers, List.mem_singleton.1 h⟩
    · exact ⟨lead, 0, by simpa using h⟩
  | mk path (argument :: others) _, _, _, name, h => by
    rw [namesRead] at h
    exact exists_of_mem_namesReadOfList (argument :: others) h

/-- Every name that is read is an identifier with closers behind. -/
theorem exists_of_mem_namesReadOfList : ∀ (types : List ArgumentType)
    {before : Option Identifier} {closers : Nat} {name : List Char},
      name ∈ namesReadOfList before closers types →
        ∃ (identifier : Identifier) (n : Nat), name = identifier.chars ++ List.replicate n '>'
  | [], _, _, _, h => nomatch h
  | [argument], _, _, _, h => exists_of_mem_namesRead argument h
  | argument :: other :: others, _, _, name, h => by
    rw [namesReadOfList, List.mem_append] at h
    rcases h with h | h
    · exact exists_of_mem_namesRead argument h
    · exact exists_of_mem_namesReadOfList (other :: others) h

end

/-- No name that is read is empty. -/
theorem ne_nil_of_mem_namesRead (type : ArgumentType) {before : Option Identifier} {closers : Nat}
    {name : List Char} (h : name ∈ type.namesRead before closers) : name ≠ [] := by
  obtain ⟨identifier, n, rfl⟩ := exists_of_mem_namesRead type h
  exact List.append_ne_nil_of_left_ne_nil identifier.ne_nil _

/-- Of a list around which nothing stands, each type is read by itself. -/
theorem namesReadOfList_none (types : List ArgumentType) :
    namesReadOfList none 0 types = types.flatMap (namesRead none 0) := by
  induction types with
  | nil => rfl
  | cons argument others ih =>
    cases others with
    | nil => simp [namesReadOfList]
    | cons other others =>
      rw [namesReadOfList, ih]
      rfl

end ArgumentType

/-! ### Signatures that are read -/

namespace ArgumentType

mutual

/-- There are no parentheses in a type. -/
theorem not_mem_text : ∀ (type : ArgumentType) {c : Char}, c = '(' ∨ c = ')' → c ∉ type.text
  | mk path [] _, c, h => by
    obtain ⟨hpunctuation, hdot, hopen, hclose, -⟩ := punctuation_of_parenthesis h
    have hpath := path.not_mem_text hpunctuation hdot
    simp [text, hpath, not_mem_brackets hopen hclose]
  | mk path (argument :: others) _, c, h => by
    obtain ⟨hpunctuation, hdot, hopen, hclose, hless, hgreater, -⟩ := punctuation_of_parenthesis h
    have hpath := path.not_mem_text hpunctuation hdot
    have harguments := not_mem_textOfList (argument :: others) h
    simp [text, hpath, harguments, not_mem_brackets hopen hclose, hless, hgreater]

/-- No parenthesis stands between the arguments. -/
theorem not_mem_textOfList : ∀ (types : List ArgumentType) {c : Char}, c = '(' ∨ c = ')' →
    c ∉ textOfList types
  | [], _, _ => List.not_mem_nil
  | [argument], _, h => not_mem_text argument h
  | argument :: other :: others, c, h => by
    obtain ⟨-, -, -, -, -, -, hcomma⟩ := punctuation_of_parenthesis h
    have hfirst := not_mem_text argument h
    have hothers := not_mem_textOfList (other :: others) h
    simp [textOfList_cons_cons, hfirst, hothers, hcomma]

end

end ArgumentType

/-- What stands between the parentheses of a signature are its arguments. -/
theorem arguments?_text (signature : Signature) :
    arguments? signature.text.toList = some (ArgumentType.textOfList signature.arguments) := by
  refine arguments?_eq_some_iff.2 ⟨signature.owner.text ++ '.' :: signature.method.chars, [')'],
    by simp [Signature.text], ?_, fun c hc => ⟨?_, ?_⟩, by simp⟩
  · have howner := signature.owner.not_mem_text (c := '(') rfl (by decide)
    have hmethod := signature.method.not_mem (c := '(') rfl
    simp [howner, hmethod]
  · exact fun heq => ArgumentType.not_mem_textOfList _ (.inl heq) hc
  · exact fun heq => ArgumentType.not_mem_textOfList _ (.inr heq) hc

/-- The arguments of a signature are read one by one. -/
theorem argumentNames_text (signature : Signature) :
    argumentNames signature.text.toList =
      signature.arguments.flatMap (ArgumentType.namesRead none 0) := by
  simp only [argumentNames, arguments?_text]
  cases harguments : signature.arguments with
  | nil => rfl
  | cons argument others =>
    have hread := ArgumentType.map_simpleName_textOfList (argument :: others) (List.cons_ne_nil _ _)
      opens_nil closes_nil
    rw [List.nil_append, List.append_nil, ArgumentType.namesReadOfList_none] at hread
    rw [hread, List.filter_eq_self]
    intro name hname
    obtain ⟨type, -, htype⟩ := List.mem_flatMap.1 hname
    have hne := ArgumentType.ne_nil_of_mem_namesRead type htype
    simpa using hne

/-! ### Types that are read whole -/

/-- Paths that are opened one behind the other leave the name of the last dotted one, and the name
that was left before if none of them is dotted. -/
theorem foldl_lead (paths : List Path) (lead : Identifier) :
    paths.foldl (fun lead path => path.lead (some lead)) lead =
      ((paths.filter Path.isDotted).getLast?.map Path.name).getD lead := by
  induction paths generalizing lead with
  | nil => rfl
  | cons path paths ih =>
    rw [List.foldl_cons, ih]
    cases hdotted : path.isDotted with
    | false => simp [Path.lead, hdotted]
    | true =>
      rw [List.filter_cons_of_pos hdotted, List.getLast?_cons]
      have hlead : path.lead (some lead) = path.name := if_pos hdotted
      rw [hlead]
      cases (paths.filter Path.isDotted).getLast? <;> rfl

namespace ArgumentType

/-- Two types that stand side by side yield more than one name. -/
theorem namesReadOfList_ne_singleton (argument other : ArgumentType) (others : List ArgumentType)
    (before : Option Identifier) (closers : Nat) (name : List Char) :
    namesReadOfList before closers (argument :: other :: others) ≠ [name] := by
  intro h
  have hlength := congrArg List.length h
  rw [namesReadOfList, List.length_append, List.length_singleton] at hlength
  have hfirst := List.length_pos_iff.2 (namesRead_ne_nil argument before 0)
  have hothers := List.length_pos_iff.2 (namesReadOfList_ne_nil other others none closers)
  omega

/-- An identifier has no closing bracket at its end. -/
theorem append_closers_ne (name : Identifier) (word : List Char) (closers : Nat) :
    word ++ List.replicate (closers + 1) '>' ≠ name.chars := by
  intro h
  refine name.not_mem (c := '>') rfl ?_
  rw [← h]
  simp

/-- A type argument is read as a name if no two types stand side by side within it, its innermost
path is not dotted, and what its paths leave is that name. -/
theorem namesRead_some_eq_iff : ∀ (type : ArgumentType) (lead name : Identifier) (closers : Nat),
    type.namesRead (some lead) (closers + 1) = [name.chars] ↔
      ∃ inner, type.inner? = some inner ∧
        (∀ path ∈ (type.path :: inner).getLast?, path.isDotted = false) ∧
        (type.path :: inner).foldl (fun lead path => path.lead (some lead)) lead = name
  | mk path [] n, lead, name, closers => by
    rw [namesRead, inner?]
    cases hdotted : path.isDotted with
    | true => simp [append_closers_ne, ArgumentType.path, hdotted]
    | false => simp [ArgumentType.path, Path.lead, hdotted, Identifier.ext_iff]
  | mk path [argument] n, lead, name, closers => by
    have ih := namesRead_some_eq_iff argument (path.lead (some lead)) name (closers + 1)
    rw [namesRead, namesReadOfList, ih, inner?]
    constructor
    · rintro ⟨inner, hinner, hlast, hlead⟩
      refine ⟨argument.path :: inner, by rw [hinner]; rfl, ?_, hlead⟩
      rw [List.getLast?_cons_cons]
      exact hlast
    · rintro ⟨paths, hpaths, hlast, hlead⟩
      obtain ⟨inner, hinner, rfl⟩ := Option.map_eq_some_iff.1 hpaths
      rw [List.getLast?_cons_cons] at hlast
      exact ⟨inner, hinner, hlast, hlead⟩
  | mk path (argument :: other :: others) n, lead, name, closers => by
    rw [namesRead, inner?]
    simp [namesReadOfList_ne_singleton]

/-- The name of a type is left to the innermost type argument exactly if the last dotted path in
front of it, if there is any, has that name. -/
theorem foldl_lead_eq_iff (paths : List Path) (name : Identifier) :
    paths.foldl (fun lead path => path.lead (some lead)) name = name ↔
      ∀ path ∈ (paths.filter Path.isDotted).getLast?, path.name = name := by
  rw [foldl_lead]
  cases (paths.filter Path.isDotted).getLast? <;> simp

/-- A type yields its simple name, and nothing else, exactly if it is read whole. -/
theorem namesRead_eq_name_iff (type : ArgumentType) :
    type.namesRead none 0 = [type.path.name.chars] ↔ type.IsReadWhole := by
  rcases type with ⟨path, _ | ⟨argument, _ | ⟨other, others⟩⟩, n⟩
  · simp [namesRead, IsReadWhole, inner?, ArgumentType.path]
  · have hlead : path.lead none = path.name := by
      rw [Path.lead]
      split <;> rfl
    have hargument := namesRead_some_eq_iff argument path.name path.name 0
    rw [namesRead, namesReadOfList, hlead, IsReadWhole, inner?]
    refine hargument.trans ⟨?_, ?_⟩
    · rintro ⟨inner, hinner, hlast, hname⟩
      exact ⟨argument.path :: inner, by rw [hinner]; rfl, hlast, (foldl_lead_eq_iff _ _).1 hname⟩
    · rintro ⟨paths, hpaths, hlast, hname⟩
      obtain ⟨inner, hinner, rfl⟩ := Option.map_eq_some_iff.1 hpaths
      exact ⟨inner, hinner, hlast, (foldl_lead_eq_iff _ _).2 hname⟩
  · rw [namesRead, IsReadWhole, inner?]
    simp [namesReadOfList_ne_singleton]

/-- A type whose type arguments are all undotted, one in each list, is read whole. -/
theorem isReadWhole_of_undotted {type : ArgumentType} {inner : List Path}
    (hinner : type.inner? = some inner) (h : ∀ path ∈ inner, path.isDotted = false) :
    type.IsReadWhole := by
  refine ⟨inner, hinner, fun path hpath => h path (List.mem_of_getLast? hpath), ?_⟩
  have hfilter : inner.filter Path.isDotted = [] :=
    List.filter_eq_nil_iff.2 fun path hpath => by simp [h path hpath]
  rw [hfilter]
  exact fun path hpath => nomatch hpath

end ArgumentType

section

variable {α β : Type} {f : α → List β}

/-- What is never empty yields at least as many as there are elements. -/
theorem length_le_length_flatMap (hne : ∀ x, f x ≠ []) (xs : List α) :
    xs.length ≤ (xs.flatMap f).length := by
  induction xs with
  | nil => exact Nat.le_refl 0
  | cons x xs ih =>
    have hx := List.length_pos_iff.2 (hne x)
    rw [List.flatMap_cons, List.length_append, List.length_cons]
    omega

/-- What is never empty yields one for each element of a list exactly if it does so for each element
by itself. -/
theorem flatMap_eq_map_iff (hne : ∀ x, f x ≠ []) (g : α → β) (xs : List α) :
    xs.flatMap f = xs.map g ↔ ∀ x ∈ xs, f x = [g x] := by
  induction xs with
  | nil => simp
  | cons x xs ih =>
    rw [List.flatMap_cons, List.map_cons, List.forall_mem_cons, ← ih]
    constructor
    · intro h
      obtain ⟨y, ys, hy⟩ := List.exists_cons_of_ne_nil (hne x)
      rw [hy, List.cons_append, List.cons.injEq] at h
      obtain ⟨rfl, hrest⟩ := h
      -- nothing more is left of the first element, as each of the others yields something
      have hys : ys = [] := by
        have hlength := congrArg List.length hrest
        have hothers := length_le_length_flatMap hne xs
        rw [List.length_append, List.length_map] at hlength
        exact List.eq_nil_of_length_eq_zero (by omega)
      subst hys
      exact ⟨hy, hrest⟩
    · rintro ⟨hx, hxs⟩
      rw [hx, hxs, List.singleton_append]

end

/-- For every signature, the extractor takes from it what the walk through each argument yields, in
order; and these are the simple names of the arguments, one each, exactly if every argument is read
whole. -/
theorem extract_context_eq_iff (signature : Signature) :
    Kind.context.extract signature.text =
        (signature.arguments.flatMap (ArgumentType.namesRead none 0)).map String.ofList ∧
      (Kind.context.extract signature.text = signature.arguments.map ArgumentType.name ↔
        ∀ argument ∈ signature.arguments, argument.IsReadWhole) := by
  have hread : Kind.context.extract signature.text =
      (signature.arguments.flatMap (ArgumentType.namesRead none 0)).map String.ofList := by
    rw [Kind.extract, argumentNames_text]
  have hnames : signature.arguments.map ArgumentType.name =
      (signature.arguments.map fun argument => argument.path.name.chars).map String.ofList := by
    rw [List.map_map]
    rfl
  refine ⟨hread, ?_⟩
  have hone := flatMap_eq_map_iff (fun argument => ArgumentType.namesRead_ne_nil argument none 0)
    (fun argument => argument.path.name.chars) signature.arguments
  rw [hread, hnames, List.map_inj_right fun _ _ => String.ofList_injective, hone]
  exact forall₂_congr fun argument _ => ArgumentType.namesRead_eq_name_iff argument

/-- A method of `java.util.Map` whose argument has two dotted type arguments. -/
def putAll : Signature :=
  let java : Identifier := { chars := "java".toList }
  let util : Identifier := { chars := "util".toList }
  let lang : Identifier := { chars := "lang".toList }
  let map : Path := ⟨[java, util], { chars := "Map".toList }⟩
  let string : Path := ⟨[java, lang], { chars := "String".toList }⟩
  let integer : Path := ⟨[java, lang], { chars := "Integer".toList }⟩
  { owner := map
    method := { chars := "putAll".toList }
    arguments := [.mk map [.mk string [] 0, .mk integer [] 0] 0] }

/-- Of an argument with two dotted type arguments, a name is read for each of these, the second one
with the bracket that is closed behind it, and none for the argument. -/
theorem extract_context_putAll :
    putAll.text = "java.util.Map.putAll(java.util.Map<java.lang.String,java.lang.Integer>)" ∧
      Kind.context.extract putAll.text = ["String", "Integer>"] ∧
      putAll.arguments.map ArgumentType.name = ["Map"] := by
  refine ⟨by decide, ?_, by decide⟩
  rw [Kind.extract, argumentNames_text]
  decide

end EvidenceSynthesis.Call
