import EvidenceSynthesis.Proofs.Json.Nesting
import EvidenceSynthesis.Proofs.Json.Numerals

/-!
# Written values are read back

The text of a value, in any style, is read as the value (`Value.ofText?_written`), unless the
value nests deeper than the reader allows.

The characters are read by a machine that may be inside of a word or a numeral when its text
ends.  What such a machine still holds is a token as soon as a character follows that cannot
belong to it; `Token.IsDelimited` says so of what stands behind a value, and it holds wherever the
writer puts one.  Under it the machine is as good as one that stands between tokens, and reading
a value adds the tokens of its document, whatever was read before (`Value.scan?_written`).
-/

namespace EvidenceSynthesis.Json

/-! ### Strings -/

/-- The piece as which a character is read from a written string: a control character that has no
short escape is written as a unit. -/
def Piece.ofWritten (c : Char) : Piece :=
  if c.toNat < 0x20 ∧ c ∉ ['\x08', '\x0c', '\n', '\r', '\t'] then .unit c.toNat else .char c

/-- A unit below the space is a character. -/
theorem Piece.spell_unit {code : Nat} (h : code < 0x20) (before : List Char)
    (pieces : List Piece) :
    spell before (.unit code :: pieces) = spell (Char.ofNat code :: before) pieces := by
  have hhigh : isHighSurrogate code = false := by simp [isHighSurrogate]; omega
  have hlow : isLowSurrogate code = false := by simp [isLowSurrogate]; omega
  cases pieces with
  | nil => simp [spell, hhigh, hlow]
  | cons piece others => cases piece <;> simp [spell, hhigh, hlow]

/-- The pieces of a written string spell it. -/
theorem Piece.spell_map_ofWritten (chars before : List Char) :
    spell before (chars.map ofWritten) = some (before.reverse ++ chars) := by
  induction chars generalizing before with
  | nil => simp [spell]
  | cons c chars ih =>
    have hspell : spell before (ofWritten c :: chars.map ofWritten) =
        spell (c :: before) (chars.map ofWritten) := by
      unfold ofWritten
      split
      · rename_i hc
        rw [spell_unit hc.1, Char.ofNat_toNat]
      · rw [spell]
    rw [List.map_cons, hspell, ih, List.reverse_cons, List.append_assoc]
    rfl

/-- The pieces of a written string spell it. -/
theorem Piece.text?_map_ofWritten (s : String) : text? (s.toList.map ofWritten) = some s := by
  rw [text?, spell_map_ofWritten]
  simp

/-! ### Scanning -/

namespace Token

/-- The tokens once the characters have been read to their end. -/
def scan? (machine : Machine) (chars : List Char) : Option (List Token) :=
  ((chars.map some).foldlM step? machine).bind finish?

theorem scan?_nil (machine : Machine) : scan? machine [] = finish? machine := rfl

theorem scan?_cons (machine : Machine) (c : Char) (chars : List Char) :
    scan? machine (c :: chars) = (step? machine (some c)).bind fun next => scan? next chars := by
  rw [scan?, List.map_cons, List.foldlM_cons]
  cases step? machine (some c) <;> rfl

/-- A step in the middle of reading. -/
theorem scan?_cons_of_step? {machine next : Machine} {c : Char}
    (h : step? machine (some c) = some next) (chars : List Char) :
    scan? machine (c :: chars) = scan? next chars := by
  rw [scan?_cons, h, Option.bind_some]

/-! ### Between tokens -/

/-- Whether what follows a word or a numeral cannot belong to it. -/
def IsDelimited (rest : List Char) : Prop :=
  ∀ c ∈ rest.head?, c.isLower = false ∧ isNumeralChar c = false

theorem isDelimited_nil : IsDelimited [] := by
  simp [IsDelimited]

theorem isDelimited_cons {c : Char} (hlower : c.isLower = false)
    (hnumeral : isNumeralChar c = false) (rest : List Char) : IsDelimited (c :: rest) := by
  simp [IsDelimited, hlower, hnumeral]

/-- A line break delimits what stands before it, and so does what stands in its place. -/
theorem isDelimited_lineBreak (style : Style) (level : Nat) {rest : List Char}
    (h : IsDelimited rest) : IsDelimited (style.lineBreak level ++ rest) := by
  cases style with
  | compact => exact h
  | lines indent => exact isDelimited_cons (by decide) (by decide) _

theorem scan?_replicate_space (before : List Token) (n : Nat) (rest : List Char) :
    scan? ⟨before, .between⟩ (List.replicate n ' ' ++ rest) = scan? ⟨before, .between⟩ rest := by
  induction n with
  | zero => rfl
  | succ n ih => exact ih

/-- Line breaks are passed over. -/
theorem scan?_lineBreak (style : Style) (level : Nat) (before : List Token) (rest : List Char) :
    scan? ⟨before, .between⟩ (style.lineBreak level ++ rest) = scan? ⟨before, .between⟩ rest := by
  cases style with
  | compact => rfl
  | lines indent => exact scan?_replicate_space before (indent * level) rest

/-- Gaps are passed over. -/
theorem scan?_gap (style : Style) (before : List Token) (rest : List Char) :
    scan? ⟨before, .between⟩ (style.gap ++ rest) = scan? ⟨before, .between⟩ rest := by
  cases style <;> rfl

/-! ### Words and numerals -/

/-- A word ends where its delimiter begins. -/
theorem scan?_word (chars : List Char) {token : Token} (h : ofWord? chars.reverse = some token)
    (before : List Token) {rest : List Char} (hrest : IsDelimited rest) :
    scan? ⟨before, .word chars⟩ rest = scan? ⟨token :: before, .between⟩ rest := by
  cases rest with
  | nil => simp [scan?_nil, finish?, h]
  | cons c rest =>
    obtain ⟨hlower, _⟩ := hrest c rfl
    simp [scan?_cons, step?, hlower, h]

/-- A numeral ends where its delimiter begins. -/
theorem scan?_numeral {chars : List Char} {token : Token}
    (h : ofNumeral? chars.reverse = some token) (before : List Token) {rest : List Char}
    (hrest : IsDelimited rest) :
    scan? ⟨before, .numeral chars⟩ rest = scan? ⟨token :: before, .between⟩ rest := by
  cases rest with
  | nil => simp [scan?_nil, finish?, h]
  | cons c rest =>
    obtain ⟨_, hnumeral⟩ := hrest c rfl
    simp [scan?_cons, step?, hnumeral, h]

/-- The characters of a numeral are gathered. -/
theorem scan?_numeralChars (before : List Token) {chars : List Char}
    (h : ∀ c ∈ chars, isNumeralChar c = true) (gathered rest : List Char) :
    scan? ⟨before, .numeral gathered⟩ (chars ++ rest) =
      scan? ⟨before, .numeral (chars.reverse ++ gathered)⟩ rest := by
  induction chars generalizing gathered with
  | nil => rfl
  | cons c chars ih =>
    obtain ⟨hc, hchars⟩ := List.forall_mem_cons.1 h
    have hstep : step? ⟨before, .numeral gathered⟩ (some c) =
        some ⟨before, .numeral (c :: gathered)⟩ := by
      simp [step?, hc]
    rw [List.cons_append, scan?_cons_of_step? hstep, ih hchars, List.reverse_cons,
      List.append_assoc]
    rfl

theorem start?_digit {c : Char} (h : c.isDigit = true) (before : List Token) :
    start? before c = some ⟨before, .numeral [c]⟩ := by
  have hne : ∀ d : Char, d.isDigit = false → (c == d) = false := by
    rintro d hd
    refine beq_eq_false_iff_ne.2 ?_
    rintro rfl
    rw [h] at hd
    cases hd
  have hsep : isSeparator c = false := by
    simp only [isSeparator, hne ' ' rfl, hne '\t' rfl, hne '\n' rfl, hne '\r' rfl, Bool.or_self]
  simp only [start?, hsep, hne '[' rfl, hne ']' rfl, hne '\x7b' rfl, hne '\x7d' rfl, hne ',' rfl,
    hne ':' rfl, hne '"' rfl, h, Bool.or_true, Bool.false_eq_true, if_false, if_true]

/-- A numeral is read to its end. -/
theorem scan?_ofChars? {chars : List Char} {numeral : Numeral}
    (h : Numeral.ofChars? chars = some numeral) (before : List Token) {rest : List Char}
    (hrest : IsDelimited rest) :
    scan? ⟨before, .between⟩ (chars ++ rest) =
      scan? ⟨.scalar (.numeral numeral) :: before, .between⟩ rest := by
  obtain ⟨hevery, c, tail, rfl, hfirst⟩ := Numeral.shape_of_ofChars? h
  have hstep : step? ⟨before, .between⟩ (some c) = some ⟨before, .numeral [c]⟩ := by
    rcases hfirst with rfl | hdigit
    · rfl
    · exact start?_digit hdigit before
  have htoken : ofNumeral? (tail.reverse ++ [c]).reverse = some (.scalar (.numeral numeral)) := by
    simp [ofNumeral?, h]
  rw [List.cons_append, scan?_cons_of_step? hstep,
    scan?_numeralChars before (List.forall_mem_cons.1 hevery).2, scan?_numeral htoken before hrest]

/-! ### Strings -/

/-- A unit that is written with two zeros and two digits is read. -/
theorem scan?_unit (before : List Token) (pieces : List Piece) {code : Nat} (h : code < 256)
    (rest : List Char) :
    scan? ⟨before, .text pieces⟩ ('\\' :: 'u' :: '0' :: '0' :: Nat.digitChar (code / 16) ::
        Nat.digitChar (code % 16) :: rest) =
      scan? ⟨before, .text (.unit code :: pieces)⟩ rest := by
  have hdigit : ∀ d < 16, Text.digit? 16 (Nat.digitChar d) = some d := by decide
  have hhigh : step? ⟨before, .unit pieces 2 0⟩ (some (Nat.digitChar (code / 16))) =
      some ⟨before, .unit pieces 3 (code / 16)⟩ := by
    simp [step?, hdigit (code / 16) (by omega)]
  have hlow : step? ⟨before, .unit pieces 3 (code / 16)⟩ (some (Nat.digitChar (code % 16))) =
      some ⟨before, .text (.unit code :: pieces)⟩ := by
    simp [step?, hdigit (code % 16) (by omega), Nat.div_add_mod]
  rw [scan?_cons_of_step? rfl, scan?_cons_of_step? rfl, scan?_cons_of_step? rfl,
    scan?_cons_of_step? rfl]
  exact (scan?_cons_of_step? hhigh _).trans (scan?_cons_of_step? hlow rest)

/-- A written character is read as its piece. -/
theorem scan?_writtenChar (before : List Token) (pieces : List Piece) (c : Char)
    (rest : List Char) :
    scan? ⟨before, .text pieces⟩ (writtenChar c ++ rest) =
      scan? ⟨before, .text (Piece.ofWritten c :: pieces)⟩ rest := by
  unfold writtenChar
  split
  case h_8 hquote hbackslash hb hf hn hr ht =>
    split
    · rename_i hc
      have hpiece : Piece.ofWritten c = .unit c.toNat := by
        simpa [Piece.ofWritten, hc] using ⟨hb, hf, hn, hr, ht⟩
      rw [hpiece]
      exact scan?_unit before pieces (by omega) rest
    · rename_i hc
      have hpiece : Piece.ofWritten c = .char c := by
        simp [Piece.ofWritten, hc]
      have hstep : step? ⟨before, .text pieces⟩ (some c) =
          some ⟨before, .text (.char c :: pieces)⟩ := by
        have hne : c ≠ '"' ∧ c ≠ '\\' := ⟨hquote, hbackslash⟩
        simp [step?, hne, hc]
      rw [hpiece]
      exact scan?_cons_of_step? hstep rest
  all_goals rfl

/-- Written characters are read as their pieces. -/
theorem scan?_writtenChars (before : List Token) (chars : List Char) (pieces : List Piece)
    (rest : List Char) :
    scan? ⟨before, .text pieces⟩ (chars.flatMap writtenChar ++ rest) =
      scan? ⟨before, .text ((chars.map Piece.ofWritten).reverse ++ pieces)⟩ rest := by
  induction chars generalizing pieces with
  | nil => rfl
  | cons c chars ih =>
    rw [List.flatMap_cons, List.append_assoc, scan?_writtenChar, ih, List.map_cons,
      List.reverse_cons, List.append_assoc]
    rfl

/-- A written string is read as the string. -/
theorem scan?_writtenString (before : List Token) (s : String) (rest : List Char) :
    scan? ⟨before, .between⟩ (writtenString s ++ rest) =
      scan? ⟨.scalar (.text (some s)) :: before, .between⟩ rest := by
  have hclose : step? ⟨before, .text ((s.toList.map Piece.ofWritten).reverse ++ [])⟩ (some '"') =
      some ⟨.scalar (.text (some s)) :: before, .between⟩ := by
    rw [List.append_nil]
    show some (Machine.mk (.scalar (.text (Piece.text? _)) :: before) .between) = _
    rw [List.reverse_reverse, Piece.text?_map_ofWritten]
  rw [writtenString, List.cons_append, List.append_assoc, scan?_cons_of_step? rfl,
    scan?_writtenChars]
  exact scan?_cons_of_step? hclose rest

end Token

/-! ### Values -/

namespace Value

open Token (IsDelimited isDelimited_cons isDelimited_lineBreak scan?)

theorem writtenItems_cons_cons (style : Style) (level : Nat) (item other : Value)
    (others : List Value) (rest : List Char) :
    writtenItems style level (item :: other :: others) rest =
      style.lineBreak level ++
        written style level item (',' :: writtenItems style level (other :: others) rest) := by
  rw [writtenItems.eq_def]

theorem writtenMembers_cons_cons (style : Style) (level : Nat) (name : String) (value : Value)
    (other : String × Value) (others : Members) (rest : List Char) :
    writtenMembers style level ((name, value) :: other :: others) rest =
      style.lineBreak level ++
        (writtenString name ++
          ':' :: (style.gap ++
            written style level value
              (',' :: writtenMembers style level (other :: others) rest))) := by
  rw [writtenMembers.eq_def]

/-- A number is scanned as the numeral that its text writes. -/
theorem scan?_number {number : Value} (h : number.ReadsBack) (before : List Token)
    {rest : List Char} (hrest : IsDelimited rest) :
    scan? ⟨before, .between⟩ (number.writtenLeaf ++ rest) =
      scan? ⟨.scalar (.numeral (.ofText number.writtenLeaf)) :: before, .between⟩ rest := by
  obtain ⟨numeral, hchars, _⟩ := h
  rw [Token.scan?_ofChars? hchars before hrest, Numeral.ofText, hchars, Option.getD_some]

mutual

/-- To the machine, the text of a value stands for the tokens of its document. -/
theorem scan?_written (style : Style) (level : Nat) : ∀ value : Value,
    value.EveryNumber ReadsBack → ∀ (before : List Token) {rest : List Char}, IsDelimited rest →
      scan? ⟨before, .between⟩ (value.written style level rest) =
        scan? ⟨value.document.tokens.reverse ++ before, .between⟩ rest
  | .null, _, before, _, hrest => Token.scan?_word ['l', 'l', 'u', 'n'] rfl before hrest
  | .bool true, _, before, _, hrest =>
    Token.scan?_word ['e', 'u', 'r', 't'] rfl before hrest
  | .bool false, _, before, _, hrest =>
    Token.scan?_word ['e', 's', 'l', 'a', 'f'] rfl before hrest
  | .integer n, hnumber, before, _, hrest => scan?_number hnumber before hrest
  | .float x, hnumber, before, _, hrest => scan?_number hnumber before hrest
  | .string s, _, before, rest, _ => Token.scan?_writtenString before s rest
  | .array [], _, before, _, _ => rfl
  | .array (item :: others), hnumbers, before, rest, hrest => by
    have hclose : IsDelimited (style.lineBreak level ++ ']' :: rest) :=
      isDelimited_lineBreak style level (isDelimited_cons (by decide) (by decide) rest)
    have hitems := scan?_writtenItems style (level + 1) (item :: others) hnumbers
      (.openArray :: before) hclose
    rw [written.eq_def]
    refine hitems.trans ?_
    rw [Token.scan?_lineBreak]
    simp [document, Document.tokens, Token.scan?_cons, Token.step?, Token.start?,
      Token.isSeparator]
  | .object [], _, before, _, _ => rfl
  | .object (member :: others), hnumbers, before, rest, hrest => by
    have hclose : IsDelimited (style.lineBreak level ++ '\x7d' :: rest) :=
      isDelimited_lineBreak style level (isDelimited_cons (by decide) (by decide) rest)
    have hmembers := scan?_writtenMembers style (level + 1) (member :: others) hnumbers
      (.openObject :: before) hclose
    rw [written.eq_def]
    refine hmembers.trans ?_
    rw [Token.scan?_lineBreak]
    simp [document, Document.tokens, Token.scan?_cons, Token.step?, Token.start?,
      Token.isSeparator]

/-- Written items are scanned into the tokens of their documents. -/
theorem scan?_writtenItems (style : Style) (level : Nat) : ∀ items : List Value,
    EveryNumberOfItems ReadsBack items →
      ∀ (before : List Token) {rest : List Char}, IsDelimited rest →
        scan? ⟨before, .between⟩ (writtenItems style level items rest) =
          scan? ⟨(Document.itemTokens (itemDocuments items)).reverse ++ before, .between⟩ rest
  | [], _, _, _, _ => rfl
  | [item], hnumbers, before, _, hrest => by
    rw [writtenItems, Token.scan?_lineBreak]
    exact scan?_written style level item hnumbers.1 before hrest
  | item :: other :: others, hnumbers, before, rest, hrest => by
    have hcomma := isDelimited_cons (c := ',') (by decide) (by decide)
      (writtenItems style level (other :: others) rest)
    have hothers := scan?_writtenItems style level (other :: others) hnumbers.2
      (.comma :: (item.document.tokens.reverse ++ before)) hrest
    rw [writtenItems_cons_cons, Token.scan?_lineBreak,
      scan?_written style level item hnumbers.1 before hcomma]
    refine hothers.trans ?_
    simp [itemDocuments, Document.itemTokens_cons_cons]

/-- Written members are scanned into the tokens of their documents. -/
theorem scan?_writtenMembers (style : Style) (level : Nat) : ∀ members : Members,
    EveryNumberOfMembers ReadsBack members →
      ∀ (before : List Token) {rest : List Char}, IsDelimited rest →
        scan? ⟨before, .between⟩ (writtenMembers style level members rest) =
          scan? ⟨(Document.memberTokens (memberDocuments members)).reverse ++ before,
            .between⟩ rest
  | [], _, _, _, _ => rfl
  | [(name, value)], hnumbers, before, rest, hrest => by
    have hvalue := scan?_written style level value hnumbers.1
      (.colon :: .scalar (.text (some name)) :: before) hrest
    rw [writtenMembers, Token.scan?_lineBreak, Token.scan?_writtenString,
      Token.scan?_cons_of_step? rfl, Token.scan?_gap]
    refine hvalue.trans ?_
    simp [memberDocuments, Document.memberTokens]
  | (name, value) :: other :: others, hnumbers, before, rest, hrest => by
    have hcomma := isDelimited_cons (c := ',') (by decide) (by decide)
      (writtenMembers style level (other :: others) rest)
    have hvalue := scan?_written style level value hnumbers.1
      (.colon :: .scalar (.text (some name)) :: before) hcomma
    have hothers := scan?_writtenMembers style level (other :: others) hnumbers.2
      (.comma :: (value.document.tokens.reverse ++
        .colon :: .scalar (.text (some name)) :: before)) hrest
    rw [writtenMembers_cons_cons, Token.scan?_lineBreak, Token.scan?_writtenString,
      Token.scan?_cons_of_step? rfl, Token.scan?_gap]
    refine hvalue.trans (hothers.trans ?_)
    simp [memberDocuments, Document.memberTokens_cons_cons]

end

/-- The text of a value, in any style, is read as the value if it does not nest too deep. -/
theorem ofText?_written {value : Value} (hnames : value.HasDistinctNames)
    (hnumbers : value.EveryNumber ReadsBack) (style : Style) :
    ofText? (String.ofList (value.written style 0 [])) =
      if value.nesting ≤ maxDepth then some value else none := by
  have hscan := scan?_written style 0 value hnumbers [] Token.isDelimited_nil
  have htokens : Token.read? ((value.written style 0 []).map some) =
      some value.document.tokens := by
    refine hscan.trans ?_
    simp [Token.scan?_nil, Token.finish?]
  rw [ofText?, Document.ofText?, Document.ofSymbols?, String.toList_ofList, htokens,
    Option.bind_some, Document.ofTokens?_tokens, Option.bind_some]
  exact value?_document maxDepth hnames hnumbers

end Value

/-! ### Values that were read -/

/-- Whether a property, at each depth, is one that leaves have and that parts pass on to what they
are parts of. -/
structure IsPassedOn (P : Nat → Value → Prop) : Prop where
  leaf : ∀ {depth : Nat} {scalar : Scalar} {value : Value},
    scalar.value? = some value → P depth value
  array : ∀ {depth : Nat} {items : List Value},
    (∀ item ∈ items, P depth item) → P (depth + 1) (.array items)
  object : ∀ {depth : Nat} {members : Members},
    (∀ member ∈ members, P depth member.2) → P (depth + 1) (.object members)

namespace IsPassedOn

variable {P : Nat → Value → Prop}

mutual

/-- What is passed on holds of every value that is read. -/
theorem of_value? (h : IsPassedOn P) {depth : Nat} {value : Value} : ∀ {document : Document},
    document.value? depth = some value → P depth value
  | .scalar _, hread => h.leaf hread
  | .array items, hread => by
    cases depth with
    | zero => simp [Document.value?] at hread
    | succ depth =>
      rw [Document.value?] at hread
      obtain ⟨values, hvalues, rfl⟩ := Option.map_eq_some_iff.1 hread
      exact h.array (h.of_itemValues? hvalues)
  | .object members, hread => by
    cases depth with
    | zero => simp [Document.value?] at hread
    | succ depth =>
      rw [Document.value?] at hread
      obtain ⟨read, hmembers, rfl⟩ := Option.map_eq_some_iff.1 hread
      have hnone : ∀ member ∈ ([] : Members), P depth member.2 := by simp
      exact h.object (h.of_memberValues? hnone hmembers)

/-- What is passed on to values holds of all items that are read. -/
theorem of_itemValues? (h : IsPassedOn P) {depth : Nat} {values : List Value} :
    ∀ {items : List Document}, Document.itemValues? depth items = some values →
      ∀ value ∈ values, P depth value
  | [], hread => by
    cases hread
    simp
  | item :: others, hread => by
    rw [Document.itemValues?] at hread
    split at hread
    · rename_i value hvalue
      obtain ⟨rest, hrest, rfl⟩ := Option.map_eq_some_iff.1 hread
      exact List.forall_mem_cons.2 ⟨h.of_value? hvalue, h.of_itemValues? hrest⟩
    · cases hread

/-- What is passed on to values holds of all members that are read. -/
theorem of_memberValues? (h : IsPassedOn P) {depth : Nat} {before members : Members}
    (hbefore : ∀ member ∈ before, P depth member.2) :
    ∀ {documents : List (Option String × Document)},
      Document.memberValues? depth before documents = some members →
        ∀ member ∈ members, P depth member.2
  | [], hread => by
    cases hread
    exact hbefore
  | (none, document) :: others, hread => by
    simp [Document.memberValues?] at hread
  | (some name, document) :: others, hread => by
    cases hvalue : document.value? depth with
    | none => simp [Document.memberValues?, hvalue] at hread
    | some value =>
      simp only [Document.memberValues?, hvalue] at hread
      have hput : ∀ member ∈ before.put name value, P depth member.2 := by
        intro member hmember
        rcases Members.mem_put hmember with rfl | hold
        · exact h.of_value? hvalue
        · exact hbefore member hold
      exact h.of_memberValues? hput hread

end

end IsPassedOn

namespace Value

/-- Whether a number, if it is an integer, fits a word. -/
def IntegerFits : Value → Prop
  | integer n => Numeral.Fits n
  | _ => True

/-- Whether a number, if it is not an integer, is read back. -/
def FloatReadsBack : Value → Prop
  | float x => ReadsBack (float x)
  | _ => True

/-- An integer that fits a word is read back. -/
theorem readsBack_integer {n : Int} (h : Numeral.Fits n) : (integer n).ReadsBack := by
  refine ⟨_, Numeral.ofChars?_integer n, ?_⟩
  rw [Numeral.value?, Numeral.integer?_of_fits h]

mutual

/-- Where integers fit words, it is enough that the other numbers are read back. -/
theorem everyNumber_readsBack : ∀ {value : Value},
    value.EveryNumber IntegerFits → value.EveryNumber FloatReadsBack →
      value.EveryNumber ReadsBack
  | .null, _, _ => trivial
  | .bool _, _, _ => trivial
  | .string _, _, _ => trivial
  | .integer _, hfits, _ => readsBack_integer hfits
  | .float _, _, hreads => hreads
  | .array _, hfits, hreads => everyNumberOfItems_readsBack hfits hreads
  | .object _, hfits, hreads => everyNumberOfMembers_readsBack hfits hreads

/-- Numbers of items read back if integers fit and floats read back. -/
theorem everyNumberOfItems_readsBack : ∀ {items : List Value},
    EveryNumberOfItems IntegerFits items → EveryNumberOfItems FloatReadsBack items →
      EveryNumberOfItems ReadsBack items
  | [], _, _ => trivial
  | _ :: _, hfits, hreads =>
    ⟨everyNumber_readsBack hfits.1 hreads.1, everyNumberOfItems_readsBack hfits.2 hreads.2⟩

theorem everyNumberOfMembers_readsBack : ∀ {members : Members},
    EveryNumberOfMembers IntegerFits members → EveryNumberOfMembers FloatReadsBack members →
      EveryNumberOfMembers ReadsBack members
  | [], _, _ => trivial
  | _ :: _, hfits, hreads =>
    ⟨everyNumber_readsBack hfits.1 hreads.1, everyNumberOfMembers_readsBack hfits.2 hreads.2⟩

end

/-- The value of a part without parts fits a word if it is an integer. -/
theorem integerFits_of_scalar {scalar : Scalar} {value : Value} (h : scalar.value? = some value) :
    value.EveryNumber IntegerFits := by
  cases scalar with
  | null =>
    cases h
    exact trivial
  | bool b =>
    cases h
    exact trivial
  | text content =>
    obtain ⟨s, _, rfl⟩ := Option.map_eq_some_iff.1 h
    exact trivial
  | numeral numeral =>
    rcases Numeral.value?_eq_some h with ⟨n, rfl⟩ | ⟨x, rfl⟩
    · exact Numeral.fits_of_value? h
    · exact trivial

/-- Integers of a value that was read fit. -/
theorem isPassedOn_integersFit : IsPassedOn fun _ value => value.EveryNumber IntegerFits where
  leaf h := integerFits_of_scalar h
  array h := everyNumberOfItems_iff.2 h
  object h := everyNumberOfMembers_iff.2 h

/-- The integers of a value that is read fit words. -/
theorem integersFit_of_value? {depth : Nat} {document : Document} {value : Value}
    (h : document.value? depth = some value) : value.EveryNumber IntegerFits :=
  isPassedOn_integersFit.of_value? h

end Value

end EvidenceSynthesis.Json
