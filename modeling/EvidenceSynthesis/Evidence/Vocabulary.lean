import EvidenceSynthesis.Json.Value

/-!
# Vocabularies

A vocabulary numbers tokens.  One that is built from data lists each token once: those
that occur more often come first, and tokens of the same frequency stand in the order
in which they first occur.  A stored list may repeat a token; its last place counts.
-/

namespace EvidenceSynthesis

/-- The tokens of a category, in the order of their numbers. -/
structure Vocabulary where
  tokens : List String
  deriving DecidableEq, Repr

namespace Vocabulary

open Json (Value Members)

/-- The number of places. -/
def size (vocabulary : Vocabulary) : Nat :=
  vocabulary.tokens.length

/-- The last place of a token in a list whose first place is `start`. -/
def lastPlace? (token : String) (start : Nat) : List String → Option Nat
  | [] => none
  | other :: rest =>
    (lastPlace? token (start + 1) rest).or (if other = token then some start else none)

/-- The number of a token. -/
def index? (vocabulary : Vocabulary) (token : String) : Option Nat :=
  lastPlace? token 0 vocabulary.tokens

/-! ### Building from data -/

/-- Each token of a list with the number of its occurrences, in the order in which they
first occur. -/
def frequencies (tokens : List String) : List (String × Nat) :=
  tokens.eraseDups.map fun token => (token, tokens.count token)

/-- The vocabulary of the tokens in lists of tokens. -/
def ofData (data : List (List String)) : Vocabulary :=
  let sorted := (frequencies data.flatten).mergeSort fun a b => decide (b.2 ≤ a.2)
  ⟨sorted.map (·.1)⟩

/-! ### Stored form -/

/-- The member that lists the tokens. -/
def charsKey : String := "chars"

/-- The member that maps each token to its number. -/
def indexKey : String := "vocab"

/-- The member that holds the number of places. -/
def sizeKey : String := "vocab_size"

/-- The numbers of the tokens as members of an object. -/
def indexMembers (vocabulary : Vocabulary) : Members :=
  Members.ofList (vocabulary.tokens.zipIdx.map fun (token, place) => (token, Value.ofNat place))

/-- Stores a vocabulary among the members of an object. -/
def store (vocabulary : Vocabulary) (members : Members) : Members :=
  ((members.put charsKey (Value.ofTexts vocabulary.tokens)).put indexKey
    (.object vocabulary.indexMembers)).put sizeKey (Value.ofNat vocabulary.size)

/-- Whether numbers that were stored are those of the vocabulary. -/
def hasNumbers (vocabulary : Vocabulary) (numbers : List (String × UInt64)) : Bool :=
  numbers.length == vocabulary.tokens.eraseDups.length &&
    numbers.all fun (token, number) => vocabulary.index? token == some number.toNat

/-- A place that is found holds the token. -/
theorem lastPlace?_eq_some {token : String} {start place : Nat} {tokens : List String}
    (h : lastPlace? token start tokens = some place) :
    start ≤ place ∧ tokens[place - start]? = some token := by
  induction tokens generalizing start with
  | nil => simp [lastPlace?] at h
  | cons other rest ih =>
    rw [lastPlace?, Option.or_eq_some_iff] at h
    rcases h with h | ⟨-, h⟩
    · obtain ⟨hle, hget⟩ := ih h
      refine ⟨by omega, ?_⟩
      rw [show place - start = (place - (start + 1)) + 1 by omega]
      simpa using hget
    · by_cases hother : other = token
      · rw [if_pos hother, Option.some.injEq] at h
        simp [h, hother]
      · rw [if_neg hother] at h
        cases h

/-- The number of a token is one of its places. -/
theorem getElem?_of_index? {vocabulary : Vocabulary} {token : String} {place : Nat}
    (h : vocabulary.index? token = some place) : vocabulary.tokens[place]? = some token := by
  simpa using (lastPlace?_eq_some h).2

/-- Every index lies below the number of tokens. -/
theorem index?_lt {vocabulary : Vocabulary} {token : String} {place : Nat}
    (h : vocabulary.index? token = some place) : place < vocabulary.size := by
  have hget := getElem?_of_index? h
  exact (List.getElem?_eq_some_iff.1 hget).1

end Vocabulary

end EvidenceSynthesis
