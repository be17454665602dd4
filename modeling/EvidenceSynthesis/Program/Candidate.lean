import EvidenceSynthesis.Evidence.TokenSet
import EvidenceSynthesis.Program.Tree

/-!
# Candidates

A candidate is a program that was drawn, with the calls that belong to it and the
number of draws that produced it.  Candidates are told apart by their trees alone.
-/

namespace EvidenceSynthesis

/-- A program that was drawn. -/
structure Candidate where
  tree : Tree
  calls : TokenSet
  count : UInt32

namespace Candidate

open Json (Value Members)

/-- The candidate of a draw, which is not counted yet. -/
def ofDraw (tree : Tree) (calls : List String) : Candidate :=
  ⟨tree, .ofList calls, 0⟩

/-- Whether two candidates have the same tree. -/
def same (a b : Candidate) : Bool :=
  a.tree.same b.tree

/-- The name under which the calls are written. -/
def callsKey : String := "calls"

/-- The name under which the count is written. -/
def countKey : String := "count"

/-- Whether a member of the tree is written: the names of the calls and of the count
are taken. -/
def isOwn (name : String) : Bool :=
  name != callsKey && name != countKey

/-- The members of a candidate as it is written: those of its tree, the calls and the
count. -/
def members (candidate : Candidate) : Members :=
  candidate.tree.members.filter (fun member => isOwn member.1) ++
    [(callsKey, Value.ofTexts candidate.calls.toList),
     (countKey, Value.ofNat candidate.count.toNat)]

/-- The candidate as a JSON value. -/
def toValue (candidate : Candidate) : Value :=
  .object candidate.members

end Candidate

end EvidenceSynthesis
