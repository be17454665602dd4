import EvidenceSynthesis.Program.Tree

/-!
# Stored corpora

The file of a corpus lists programs: `{"programs": [{"ast": {…}}, …]}`.  Both records
may also be written as arrays of their only field.  A field may occur once; members of
other names are passed over whatever their values hold.
-/

namespace EvidenceSynthesis.CorpusFile

open Json (Document)

/-- How deep a program may nest: three levels of the file enclose it. -/
def treeDepth : Nat := Json.maxDepth - 3

/-- The only member of a name; none if it is absent, if it is repeated or if the name of
some member spells no text. -/
def onlyMember? (field : String) (members : List (Option String × Document)) :
    Option Document :=
  if members.any fun member => member.1.isNone then none
  else
    match members.filter fun member => member.1 == some field with
    | [member] => some member.2
    | _ => none

/-- The value of the only field of a record. -/
def fieldOf? (field : String) : Document → Option Document
  | .object members => onlyMember? field members
  | .array [document] => some document
  | _ => none

/-- The tree of a program. -/
def tree? (document : Document) : Option Tree :=
  (fieldOf? "ast" document).bind (Tree.ofDocument? treeDepth)

/-- The trees of a document. -/
def trees? (document : Document) : Option (List Tree) :=
  match fieldOf? "programs" document with
  | some (.array programs) => programs.mapM tree?
  | _ => none

/-- The trees in a file. -/
def ofOctets? (octets : Text.Octets) : Option (List Tree) :=
  (Document.ofOctets? octets).bind trees?

end EvidenceSynthesis.CorpusFile
