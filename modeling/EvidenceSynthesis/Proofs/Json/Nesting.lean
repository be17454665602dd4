import EvidenceSynthesis.Json.Reader
import EvidenceSynthesis.Json.Writer

/-!
# Nested values and their tokens

A document is the nesting of its tokens.  `Document.tokens` lists them, and
`Document.ofTokens?_tokens` says that the nesting machine puts them together again, whatever the
document.

A value is written as a document that has no member twice: `Value.document`.  Reading that
document gives the value back if the value nests no deeper than the reader allows, and nothing
otherwise (`Value.value?_document`).  The names within the value must be distinct, as they are in
every value that was read, and its numbers must be read back from their own texts.
-/

namespace EvidenceSynthesis.Json

open EvidenceSynthesis.Decimal (Binary64)

/-! ### Documents as tokens -/

namespace Document

mutual

/-- The tokens of a document. -/
def tokens : Document → List Token
  | .scalar leaf => [.scalar leaf]
  | .array items => .openArray :: (itemTokens items ++ [.closeArray])
  | .object members => .openObject :: (memberTokens members ++ [.closeObject])

/-- The tokens of items, with commas between them. -/
def itemTokens : List Document → List Token
  | [] => []
  | [item] => tokens item
  | item :: others => tokens item ++ .comma :: itemTokens others

/-- The tokens of members, with commas between them. -/
def memberTokens : List (Option String × Document) → List Token
  | [] => []
  | [(name, document)] => .scalar (.text name) :: .colon :: tokens document
  | (name, document) :: others =>
    .scalar (.text name) :: .colon :: (tokens document ++ .comma :: memberTokens others)

end

theorem itemTokens_cons_cons (item other : Document) (others : List Document) :
    itemTokens (item :: other :: others) =
      tokens item ++ .comma :: itemTokens (other :: others) := rfl

theorem memberTokens_cons_cons (name : Option String) (document : Document)
    (other : Option String × Document) (others : List (Option String × Document)) :
    memberTokens ((name, document) :: other :: others) =
      .scalar (.text name) :: .colon ::
        (tokens document ++ .comma :: memberTokens (other :: others)) := rfl

/-- No document starts with the end of an array, so that the first item of an array is read as
any other. -/
theorem foldlM_firstItem (stack : List Frame) (document : Document) (rest : List Token) :
    (document.tokens ++ rest).foldlM step? (.firstItem stack) =
      (document.tokens ++ rest).foldlM step? (.value (.items [] :: stack)) := by
  cases document with
  | scalar leaf => rfl
  | array items => rfl
  | object members => rfl

mutual

/-- The tokens of a document are read as that document, whatever is open around it. -/
theorem foldlM_tokens : ∀ (document : Document) (stack : List Frame),
    document.tokens.foldlM step? (.value stack) = some (.afterValue document stack)
  | .scalar leaf, _ => rfl
  | .array [], _ => rfl
  | .array (item :: others), stack => by
    rw [tokens, List.foldlM_cons]
    show (itemTokens (item :: others) ++ [Token.closeArray]).foldlM step? (.firstItem stack) = _
    have hitems := foldlM_itemTokens (item :: others) (List.cons_ne_nil item others) [] stack
    cases others with
    | nil =>
      rw [itemTokens, foldlM_firstItem]
      exact hitems
    | cons other others =>
      rw [itemTokens_cons_cons, List.append_assoc] at hitems ⊢
      rw [foldlM_firstItem]
      exact hitems
  | .object [], _ => rfl
  | .object (member :: others), stack => by
    rw [tokens, List.foldlM_cons]
    have hmembers :=
      foldlM_memberTokens (member :: others) (List.cons_ne_nil member others) [] stack
    -- the first member is read as the next one of none before it
    have hfirst : ∀ rest, (memberTokens (member :: others) ++ rest).foldlM step?
        (.firstMember stack) =
          (memberTokens (member :: others) ++ rest).foldlM step? (.nextMember [] stack) := by
      intro rest
      cases others <;> rfl
    exact (hfirst _).trans hmembers

/-- The tokens of items are read up to the end of their array. -/
theorem foldlM_itemTokens : ∀ items : List Document, items ≠ [] →
    ∀ (before : List Document) (stack : List Frame),
      (itemTokens items ++ [Token.closeArray]).foldlM step? (.value (.items before :: stack)) =
        some (.afterValue (.array (before.reverse ++ items)) stack)
  | [], h, _, _ => absurd rfl h
  | [item], _, before, stack => by
    rw [itemTokens, List.foldlM_append, foldlM_tokens item (.items before :: stack),
      ← List.reverse_cons]
    rfl
  | item :: other :: others, _, before, stack => by
    rw [itemTokens_cons_cons, List.append_assoc, List.foldlM_append,
      foldlM_tokens item (.items before :: stack)]
    have hothers := foldlM_itemTokens (other :: others) (List.cons_ne_nil other others)
      (item :: before) stack
    rw [List.reverse_cons, List.append_assoc] at hothers
    exact hothers

/-- The tokens of members are read up to the end of their object. -/
theorem foldlM_memberTokens : ∀ members : List (Option String × Document), members ≠ [] →
    ∀ (before : List (Option String × Document)) (stack : List Frame),
      (memberTokens members ++ [Token.closeObject]).foldlM step? (.nextMember before stack) =
        some (.afterValue (.object (before.reverse ++ members)) stack)
  | [], h, _, _ => absurd rfl h
  | [(name, document)], _, before, stack => by
    show (document.tokens ++ _).foldlM step? (.value (.member before name :: stack)) = _
    rw [List.foldlM_append, foldlM_tokens document (.member before name :: stack),
      ← List.reverse_cons]
    rfl
  | (name, document) :: other :: others, _, before, stack => by
    show (document.tokens ++ .comma :: memberTokens (other :: others) ++ _).foldlM step?
      (.value (.member before name :: stack)) = _
    have hothers := foldlM_memberTokens (other :: others) (List.cons_ne_nil other others)
      ((name, document) :: before) stack
    rw [List.reverse_cons, List.append_assoc] at hothers
    rw [List.append_assoc, List.foldlM_append,
      foldlM_tokens document (.member before name :: stack)]
    exact hothers

end

/-- The tokens of a document form that document. -/
theorem ofTokens?_tokens (document : Document) : ofTokens? document.tokens = some document := by
  rw [ofTokens?, foldlM_tokens]

/-! ### Tokens of what is still open -/

/-- The tokens of items, each with the comma behind it. -/
def closedItems (items : List Document) : List Token :=
  items.flatMap fun item => item.tokens ++ [.comma]

/-- The tokens of members, each with the comma behind it. -/
def closedMembers (members : List (Option String × Document)) : List Token :=
  members.flatMap fun member =>
    .scalar (.text member.1) :: .colon :: (member.2.tokens ++ [.comma])

/-- A last item follows the items that a comma has closed. -/
theorem itemTokens_append_singleton (items : List Document) (item : Document) :
    itemTokens (items ++ [item]) = closedItems items ++ item.tokens := by
  induction items with
  | nil => rfl
  | cons first items ih =>
    obtain ⟨second, others, hrest⟩ : ∃ second others, items ++ [item] = second :: others :=
      List.exists_cons_of_ne_nil (by simp)
    rw [List.cons_append, hrest, itemTokens_cons_cons, ← hrest, ih]
    simp [closedItems]

/-- A last member follows the members that a comma has closed. -/
theorem memberTokens_append_singleton (members : List (Option String × Document))
    (name : Option String) (document : Document) :
    memberTokens (members ++ [(name, document)]) =
      closedMembers members ++ .scalar (.text name) :: .colon :: document.tokens := by
  induction members with
  | nil => rfl
  | cons first members ih =>
    obtain ⟨second, others, hrest⟩ :
        ∃ second others, members ++ [(name, document)] = second :: others :=
      List.exists_cons_of_ne_nil (by simp)
    rw [List.cons_append, hrest, memberTokens_cons_cons, ← hrest, ih]
    simp [closedMembers]

/-- The tokens of an array or object that is still open. -/
def Frame.tokens : Frame → List Token
  | .items before => .openArray :: closedItems before.reverse
  | .member before name =>
    .openObject :: (closedMembers before.reverse ++ [.scalar (.text name), .colon])

/-- The tokens of all that is open, the outermost first. -/
def openTokens : List Frame → List Token
  | [] => []
  | frame :: stack => openTokens stack ++ frame.tokens

/-- The tokens that have been read. -/
def Progress.tokens : Progress → List Token
  | .value stack => openTokens stack
  | .firstItem stack => openTokens stack ++ [.openArray]
  | .firstMember stack => openTokens stack ++ [.openObject]
  | .nextMember before stack => openTokens stack ++ .openObject :: closedMembers before.reverse
  | .afterName before name stack =>
    openTokens stack ++ .openObject :: (closedMembers before.reverse ++ [.scalar (.text name)])
  | .afterValue document stack => openTokens stack ++ document.tokens

/-- Beginning a document reads its first token. -/
theorem tokens_begin? {stack : List Frame} {token : Token} {next : Progress}
    (h : begin? stack token = some next) : next.tokens = openTokens stack ++ [token] := by
  unfold begin? at h
  split at h
  · cases h
    rfl
  · cases h
    rfl
  · cases h
    rfl
  · cases h

/-- A step reads one token more. -/
theorem tokens_step? {progress next : Progress} {token : Token}
    (h : step? progress token = some next) : next.tokens = progress.tokens ++ [token] := by
  unfold step? at h
  split at h
  case h_1 => exact tokens_begin? h
  case h_3 =>
    rw [tokens_begin? h, openTokens]
    rfl
  case h_12 => cases h
  all_goals
    cases h
    simp [Progress.tokens, openTokens, Frame.tokens, closedItems, closedMembers, tokens,
      itemTokens_append_singleton, memberTokens_append_singleton, itemTokens, memberTokens]

/-- Progress keeps exactly the tokens that were read. -/
theorem tokens_foldlM {progress next : Progress} {others : List Token}
    (h : others.foldlM step? progress = some next) : next.tokens = progress.tokens ++ others := by
  induction others generalizing progress with
  | nil =>
    cases h
    rw [List.append_nil]
  | cons token others ih =>
    rw [List.foldlM_cons] at h
    obtain ⟨middle, hmiddle, hrest⟩ := Option.bind_eq_some_iff.1 h
    rw [ih hrest, tokens_step? hmiddle, List.append_assoc]
    rfl

/-- Tokens form a document exactly if they are the tokens of that document. -/
theorem ofTokens?_eq_some_iff {others : List Token} {document : Document} :
    ofTokens? others = some document ↔ others = document.tokens := by
  constructor
  · intro h
    unfold ofTokens? at h
    split at h
    · rename_i hread
      cases h
      exact (tokens_foldlM hread).symm
    · cases h
  · rintro rfl
    exact ofTokens?_tokens document

end Document

/-! ### Members put one by one -/

/-- A member of a new name is put at the end. -/
theorem Members.put_of_not_mem {name : String} {members : Members}
    (h : name ∉ Members.names members) (value : Value) :
    Members.put name value members = members ++ [(name, value)] := by
  induction members with
  | nil => rfl
  | cons member rest ih =>
    have hne : member.1 ≠ name := fun heq => h (heq ▸ List.mem_cons_self)
    rw [put, if_neg hne, ih fun hmem => h (List.mem_cons_of_mem _ hmem)]
    rfl

/-- What is among the members after one was put is that member or was there before. -/
theorem Members.mem_put {name : String} {value : Value} {members : Members}
    {member : String × Value} (h : member ∈ Members.put name value members) :
    member = (name, value) ∨ member ∈ members := by
  induction members with
  | nil => exact Or.inl (List.mem_singleton.1 h)
  | cons first rest ih =>
    by_cases hname : first.1 = name
    · rw [put, if_pos hname, hname] at h
      exact (List.mem_cons.1 h).imp_right (List.mem_cons_of_mem first)
    · rw [put, if_neg hname] at h
      rcases List.mem_cons.1 h with rfl | hrest
      · exact Or.inr List.mem_cons_self
      · exact (ih hrest).imp_right (List.mem_cons_of_mem first)

/-! ### Values as documents -/

/-- The numeral that a text writes; a text that writes none is of no interest. -/
def Numeral.ofText (chars : List Char) : Numeral :=
  (ofChars? chars).getD ⟨false, [], none, none⟩

namespace Value

/-- Whether the text of a number is read as that number. -/
def ReadsBack (number : Value) : Prop :=
  ∃ numeral, Numeral.ofChars? number.writtenLeaf = some numeral ∧ numeral.value? = some number

mutual

/-- Whether every number within the value has a property. -/
def EveryNumber (p : Value → Prop) : Value → Prop
  | integer n => p (integer n)
  | float x => p (float x)
  | array items => EveryNumberOfItems p items
  | object members => EveryNumberOfMembers p members
  | _ => True

/-- `EveryNumber` for every item. -/
def EveryNumberOfItems (p : Value → Prop) : List Value → Prop
  | [] => True
  | item :: others => EveryNumber p item ∧ EveryNumberOfItems p others

/-- `EveryNumber` for the value of every member. -/
def EveryNumberOfMembers (p : Value → Prop) : List (String × Value) → Prop
  | [] => True
  | (_, value) :: others => EveryNumber p value ∧ EveryNumberOfMembers p others

end

mutual

/-- How deep arrays and objects nest in the value. -/
def nesting : Value → Nat
  | array items => nestingOfItems items + 1
  | object members => nestingOfMembers members + 1
  | _ => 0

/-- The greatest nesting of an item. -/
def nestingOfItems : List Value → Nat
  | [] => 0
  | item :: others => max (nesting item) (nestingOfItems others)

/-- The greatest nesting of the value of a member. -/
def nestingOfMembers : List (String × Value) → Nat
  | [] => 0
  | (_, value) :: others => max (nesting value) (nestingOfMembers others)

end

theorem everyNumberOfItems_iff {p : Value → Prop} {items : List Value} :
    EveryNumberOfItems p items ↔ ∀ item ∈ items, item.EveryNumber p := by
  induction items with
  | nil => simp [EveryNumberOfItems]
  | cons item others ih => simp [EveryNumberOfItems, ih]

theorem everyNumberOfMembers_iff {p : Value → Prop} {members : Members} :
    EveryNumberOfMembers p members ↔ ∀ member ∈ members, member.2.EveryNumber p := by
  induction members with
  | nil => simp [EveryNumberOfMembers]
  | cons member others ih => simp [EveryNumberOfMembers, ih]

theorem nestingOfItems_le_iff {n : Nat} {items : List Value} :
    nestingOfItems items ≤ n ↔ ∀ item ∈ items, item.nesting ≤ n := by
  induction items with
  | nil => simp [nestingOfItems]
  | cons item others ih => rw [nestingOfItems, Nat.max_le, ih, List.forall_mem_cons]

theorem nestingOfMembers_le_iff {n : Nat} {members : Members} :
    nestingOfMembers members ≤ n ↔ ∀ member ∈ members, member.2.nesting ≤ n := by
  induction members with
  | nil => simp [nestingOfMembers]
  | cons member others ih => rw [nestingOfMembers, Nat.max_le, ih, List.forall_mem_cons]

/-- The items of an array nest one level less than the array. -/
theorem nesting_array_le_iff {n : Nat} {items : List Value} :
    (array items).nesting ≤ n + 1 ↔ ∀ item ∈ items, item.nesting ≤ n := by
  rw [nesting, Nat.add_le_add_iff_right, nestingOfItems_le_iff]

/-- The members of an object nest one level less than the object. -/
theorem nesting_object_le_iff {n : Nat} {members : Members} :
    (object members).nesting ≤ n + 1 ↔ ∀ member ∈ members, member.2.nesting ≤ n := by
  rw [nesting, Nat.add_le_add_iff_right, nestingOfMembers_le_iff]

mutual

/-- The document as which the value is written. -/
def document : Value → Document
  | null => .scalar .null
  | bool b => .scalar (.bool b)
  | integer n => .scalar (.numeral (.ofText (writtenLeaf (integer n))))
  | float x => .scalar (.numeral (.ofText (writtenLeaf (float x))))
  | string s => .scalar (.text (some s))
  | array items => .array (itemDocuments items)
  | object members => .object (memberDocuments members)

/-- The documents of items. -/
def itemDocuments : List Value → List Document
  | [] => []
  | item :: others => document item :: itemDocuments others

/-- The documents of members. -/
def memberDocuments : List (String × Value) → List (Option String × Document)
  | [] => []
  | (name, value) :: others => (some name, document value) :: memberDocuments others

end

/-- A number that reads back is the value of its numeral. -/
theorem value?_ofText {number : Value} (h : number.ReadsBack) :
    (Numeral.ofText number.writtenLeaf).value? = some number := by
  obtain ⟨numeral, hchars, hvalue⟩ := h
  rw [Numeral.ofText, hchars, Option.getD_some, hvalue]

mutual

/-- A value is read from its document exactly if it does not nest too deep. -/
theorem value?_document (depth : Nat) : ∀ {value : Value},
    value.HasDistinctNames → value.EveryNumber ReadsBack →
      value.document.value? depth = if value.nesting ≤ depth then some value else none
  | .null, _, _ => rfl
  | .bool b, _, _ => rfl
  | .integer n, _, hnumber => value?_ofText hnumber
  | .float x, _, hnumber => value?_ofText hnumber
  | .string s, _, _ => rfl
  | .array items, hnames, hnumbers => by
    cases depth with
    | zero => rfl
    | succ depth =>
      rw [document, Document.value?, itemValues?_itemDocuments depth hnames hnumbers, nesting]
      simp only [Nat.add_le_add_iff_right]
      split <;> rfl
  | .object members, hnames, hnumbers => by
    cases depth with
    | zero => rfl
    | succ depth =>
      rw [document, Document.value?,
        memberValues?_memberDocuments depth [] hnames.1 hnames.2 hnumbers, nesting]
      simp only [Nat.add_le_add_iff_right]
      split <;> rfl

/-- Items are read back exactly if they nest within the depth. -/
theorem itemValues?_itemDocuments (depth : Nat) : ∀ {items : List Value},
    ItemsHaveDistinctNames items → EveryNumberOfItems ReadsBack items →
      Document.itemValues? depth (itemDocuments items) =
        if nestingOfItems items ≤ depth then some items else none
  | [], _, _ => rfl
  | item :: others, hnames, hnumbers => by
    rw [itemDocuments, Document.itemValues?, value?_document depth hnames.1 hnumbers.1,
      itemValues?_itemDocuments depth hnames.2 hnumbers.2, nestingOfItems]
    simp only [Nat.max_le]
    by_cases hitem : item.nesting ≤ depth
    · by_cases hothers : nestingOfItems others ≤ depth
      · simp [hitem, hothers]
      · simp [hitem, hothers]
    · simp [hitem]

/-- Members are read back exactly if they nest within the depth. -/
theorem memberValues?_memberDocuments (depth : Nat) (before : Members) :
    ∀ {members : Members}, (Members.names (before ++ members)).Nodup →
      MembersHaveDistinctNames members → EveryNumberOfMembers ReadsBack members →
        Document.memberValues? depth before (memberDocuments members) =
          if nestingOfMembers members ≤ depth then some (before ++ members) else none
  | [], _, _, _ => by simp [memberDocuments, Document.memberValues?, nestingOfMembers]
  | (name, value) :: others, hnodup, hnames, hnumbers => by
    have hnew : name ∉ Members.names before := by
      rw [Members.names, List.map_append, List.nodup_append] at hnodup
      intro hmem
      exact hnodup.2.2 name hmem name (by simp) rfl
    have hassoc : before ++ (name, value) :: others = before ++ [(name, value)] ++ others := by
      simp
    have hread := value?_document depth hnames.1 hnumbers.1
    rw [memberDocuments, Document.memberValues?.eq_def, nestingOfMembers]
    simp only [Nat.max_le]
    by_cases hvalue : value.nesting ≤ depth
    · rw [if_pos hvalue] at hread
      simp only [hread, Members.put_of_not_mem hnew]
      rw [memberValues?_memberDocuments depth _ (hassoc ▸ hnodup) hnames.2 hnumbers.2, ← hassoc]
      by_cases hothers : nestingOfMembers others ≤ depth
      · simp [hvalue, hothers]
      · simp [hothers]
    · rw [if_neg hvalue] at hread
      simp [hread, hvalue]

end

end Value

end EvidenceSynthesis.Json
