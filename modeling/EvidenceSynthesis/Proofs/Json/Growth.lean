import EvidenceSynthesis.Proofs.Decimal.TextLength
import EvidenceSynthesis.Proofs.Json.Size

/-!
# How much longer a value is written than it was read

A text has at least as many characters as its tokens need (`Token.weights_of_read?`).  What the
reader makes of the tokens is laid out in at most so many octets for each of those characters as
the deepest line is indented, and some more (`Json.writtenSize_le_of_value?`).
-/

namespace EvidenceSynthesis.Json

/-! ### Characters that tokens need -/

/-- Pieces spell no more characters than there are pieces. -/
theorem Piece.length_of_spell {before chars : List Char} {pieces : List Piece}
    (h : spell before pieces = some chars) : chars.length ≤ before.length + pieces.length := by
  fun_induction spell before pieces
  case case1 before =>
    cases h
    simp
  case case2 ih | case4 ih | case7 ih | case9 ih =>
    have hle := ih h
    simp only [List.length_cons] at hle ⊢
    omega
  -- a hole, or one half of a pair without the other
  case case3 | case5 | case6 | case8 => cases h

namespace Token

/-- The least number of characters of a token. -/
def weight : Token → Nat
  | .scalar .null => 4
  | .scalar (.bool _) => 4
  | .scalar (.text (some s)) => s.length + 2
  | .scalar (.text none) => 2
  | _ => 1

/-- The least number of characters of tokens. -/
def weights : List Token → Nat
  | [] => 0
  | token :: tokens => token.weight + weights tokens

theorem weights_nil : weights [] = 0 := rfl

theorem weights_cons (token : Token) (tokens : List Token) :
    weights (token :: tokens) = token.weight + weights tokens := rfl

theorem weights_append (tokens others : List Token) :
    weights (tokens ++ others) = weights tokens + weights others := by
  induction tokens with
  | nil => rw [List.nil_append, weights_nil, Nat.zero_add]
  | cons token tokens ih => rw [List.cons_append, weights_cons, weights_cons, ih, Nat.add_assoc]

theorem weights_reverse (tokens : List Token) : weights tokens.reverse = weights tokens := by
  induction tokens with
  | nil => rfl
  | cons token tokens ih =>
    rw [List.reverse_cons, weights_append, weights_cons, weights_cons, weights_nil, ih,
      Nat.add_zero, Nat.add_comm]

/-- The least number of characters that a machine has gathered. -/
def Mode.weight : Mode → Nat
  | .between => 0
  | .word before => before.length
  | .numeral before => before.length
  | .text before => before.length + 1
  | .escape before => before.length + 2
  | .unit before _ _ => before.length + 2

/-- The least number of characters that a machine has read. -/
def Machine.weight (machine : Machine) : Nat :=
  weights machine.before + machine.mode.weight

/-- A text weighs no more than its pieces and its two quotes. -/
theorem weight_text (pieces : List Piece) :
    weight (.scalar (.text (Piece.text? pieces))) ≤ pieces.length + 2 := by
  cases htext : Piece.text? pieces with
  | none => exact Nat.le_add_left 2 _
  | some s =>
    obtain ⟨chars, hchars, rfl⟩ := Option.map_eq_some_iff.1 htext
    have hle := Piece.length_of_spell hchars
    simp only [weight, String.length_ofList]
    simp only [List.length_nil] at hle
    omega

theorem weight_of_ofWord? {chars : List Char} {token : Token}
    (h : ofWord? chars.reverse = some token) : token.weight ≤ chars.length := by
  rw [← chars.length_reverse]
  unfold ofWord? at h
  split at h
  · rename_i hchars
    cases h
    rw [hchars]
    decide
  · split at h
    · rename_i hchars
      cases h
      rw [hchars]
      decide
    · split at h
      · rename_i hchars
        cases h
        rw [hchars]
        decide
      · cases h

/-- A numeral weighs no more than its characters. -/
theorem weight_of_ofNumeral? {chars : List Char} {token : Token}
    (h : ofNumeral? chars.reverse = some token) : token.weight ≤ chars.length := by
  obtain ⟨numeral, hnumeral, rfl⟩ := Option.map_eq_some_iff.1 h
  obtain ⟨_, c, tail, hchars, _⟩ := Numeral.shape_of_ofChars? hnumeral
  rw [← chars.length_reverse, hchars]
  exact Nat.le_add_left 1 tail.length

/-- Whether a machine, if there is one, has gathered no more than so many characters. -/
def IsBounded (n : Nat) (machine? : Option Machine) : Prop :=
  ∀ machine ∈ machine?, machine.weight ≤ n

theorem isBounded_ite {n : Nat} {p : Prop} [Decidable p] {yes no : Option Machine}
    (hyes : IsBounded n yes) (hno : IsBounded n no) : IsBounded n (if p then yes else no) := by
  split
  · exact hyes
  · exact hno

theorem isBounded_some {n : Nat} {machine : Machine} (h : machine.weight ≤ n) :
    IsBounded n (some machine) := by
  intro other hother
  cases hother
  exact h

theorem isBounded_start? (before : List Token) (c : Char) :
    IsBounded (weights before + 1) (start? before c) := by
  have hsame : IsBounded (weights before + 1) (some ⟨before, .between⟩) :=
    isBounded_some (Nat.le_add_right _ 1)
  have hsign : ∀ token, token.weight = 1 →
      IsBounded (weights before + 1) (some ⟨token :: before, .between⟩) := by
    intro token htoken
    refine isBounded_some (Nat.le_of_eq ?_)
    show weights (token :: before) + 0 = weights before + 1
    rw [weights_cons, htoken]
    exact Nat.add_comm 1 _
  have hbegun : ∀ mode : Mode, mode.weight = 1 →
      IsBounded (weights before + 1) (some ⟨before, mode⟩) := by
    intro mode hmode
    refine isBounded_some (Nat.le_of_eq ?_)
    rw [Machine.weight, hmode]
  exact isBounded_ite hsame <| isBounded_ite (hsign _ rfl) <| isBounded_ite (hsign _ rfl) <|
    isBounded_ite (hsign _ rfl) <| isBounded_ite (hsign _ rfl) <| isBounded_ite (hsign _ rfl) <|
    isBounded_ite (hsign _ rfl) <| isBounded_ite (hbegun _ rfl) <| isBounded_ite (hbegun _ rfl) <|
    isBounded_ite (hbegun _ rfl) nofun

/-- A token that ends with the character behind it needs no more than was gathered for it. -/
theorem isBounded_bind_start? {token? : Option Token} {n : Nat}
    (hweight : ∀ token, token? = some token → token.weight ≤ n) (before : List Token) (c : Char) :
    IsBounded (weights before + n + 1) (token?.bind fun token => start? (token :: before) c) := by
  intro next hnext
  obtain ⟨token, htoken, hstart⟩ := Option.bind_eq_some_iff.1 hnext
  have hle := isBounded_start? (token :: before) c next hstart
  have htoken := hweight token htoken
  rw [weights_cons] at hle
  omega

/-- A token that ends with the text needs no more than was gathered for it. -/
theorem weights_of_map_reverse {token? : Option Token} {n : Nat}
    (hweight : ∀ token, token? = some token → token.weight ≤ n) {before tokens : List Token}
    (h : (token?.map fun token => (token :: before).reverse) = some tokens) :
    weights tokens ≤ weights before + n := by
  obtain ⟨token, htoken, rfl⟩ := Option.map_eq_some_iff.1 h
  have htoken := hweight token htoken
  rw [weights_reverse, weights_cons]
  omega

/-- A step reads a character more. -/
theorem isBounded_step? (machine : Machine) (c : Char) :
    IsBounded (machine.weight + 1) (step? machine (some c)) := by
  obtain ⟨before, mode⟩ := machine
  cases mode with
  | between => exact isBounded_start? before c
  | word chars =>
    exact isBounded_ite (isBounded_some (Nat.le_refl _))
      (isBounded_bind_start? (fun _ => weight_of_ofWord?) before c)
  | numeral chars =>
    exact isBounded_ite (isBounded_some (Nat.le_refl _))
      (isBounded_bind_start? (fun _ => weight_of_ofNumeral?) before c)
  | text pieces =>
    have hclosed : Machine.weight
        ⟨.scalar (.text (Piece.text? pieces.reverse)) :: before, .between⟩ ≤
          Machine.weight ⟨before, .text pieces⟩ + 1 := by
      have hweight := weight_text pieces.reverse
      rw [List.length_reverse] at hweight
      simp only [Machine.weight, Mode.weight, weights_cons]
      omega
    exact isBounded_ite (isBounded_some hclosed) <|
      isBounded_ite (isBounded_some (Nat.le_refl _)) <|
        isBounded_ite nofun (isBounded_some (Nat.le_refl _))
  | escape pieces =>
    refine isBounded_ite (isBounded_some (Nat.le_add_right _ 1)) fun next hnext => ?_
    obtain ⟨d, _, rfl⟩ := Option.map_eq_some_iff.1 hnext
    exact Nat.le_add_right _ 1
  | unit pieces digits code =>
    intro next hnext
    obtain ⟨value, _, rfl⟩ := Option.map_eq_some_iff.1 hnext
    split <;> exact Nat.le_add_right _ 1

/-- A machine gathers no more than one for each character that it reads. -/
theorem weight_of_foldlM {machine next : Machine} {chars : List Char}
    (h : (chars.map some).foldlM step? machine = some next) :
    next.weight ≤ machine.weight + chars.length := by
  induction chars generalizing machine with
  | nil =>
    cases h
    exact Nat.le_refl _
  | cons c chars ih =>
    rw [List.map_cons, List.foldlM_cons] at h
    obtain ⟨middle, hmiddle, hrest⟩ := Option.bind_eq_some_iff.1 h
    have hstep := isBounded_step? machine c middle hmiddle
    have hle := ih hrest
    rw [List.length_cons]
    omega

/-- The tokens that a machine ends with weigh no more than it gathered. -/
theorem weights_of_finish? {machine : Machine} {tokens : List Token}
    (h : finish? machine = some tokens) : weights tokens ≤ machine.weight := by
  obtain ⟨before, mode⟩ := machine
  cases mode with
  | between =>
    cases h
    rw [weights_reverse]
    exact Nat.le_refl _
  | word chars => exact weights_of_map_reverse (fun _ => weight_of_ofWord?) h
  | numeral chars => exact weights_of_map_reverse (fun _ => weight_of_ofNumeral?) h
  | text pieces => cases h
  | escape pieces => cases h
  | unit pieces digits code => cases h

/-- A text has as many characters as its tokens need. -/
theorem weights_of_read? {chars : List Char} {tokens : List Token}
    (h : read? (chars.map some) = some tokens) : weights tokens ≤ chars.length := by
  obtain ⟨machine, hmachine, hfinish⟩ := Option.bind_eq_some_iff.1 h
  have hread := weight_of_foldlM hmachine
  have hstart : Machine.weight ⟨[], .between⟩ = 0 := rfl
  rw [hstart, Nat.zero_add] at hread
  exact Nat.le_trans (weights_of_finish? hfinish) hread

end Token

/-! ### Parts without parts -/

open Text.Utf8 (size size_nil size_cons size_append)

theorem size_le (chars : List Char) : size chars ≤ 4 * chars.length := by
  induction chars with
  | nil => exact Nat.le_refl 0
  | cons c chars ih =>
    have hc := c.utf8Size_le_four
    rw [size_cons, List.length_cons]
    omega

/-- A character of a string is written in no more than six octets. -/
theorem size_writtenChar_le (c : Char) : size (writtenChar c) ≤ 6 := by
  have hdigit : ∀ d < 16, (Nat.digitChar d).utf8Size = 1 := by decide
  unfold writtenChar
  split
  case h_8 =>
    split
    · have hhigh := hdigit (c.toNat / 16) (by omega)
      have hlow := hdigit (c.toNat % 16) (by omega)
      simp only [size_cons, hhigh, hlow, size_nil]
      decide
    · have hc := c.utf8Size_le_four
      rw [size_cons, size_nil]
      omega
  all_goals decide

/-- A character of a string is written with at most six octets. -/
theorem size_flatMap_writtenChar_le (chars : List Char) :
    size (chars.flatMap writtenChar) ≤ 6 * chars.length := by
  induction chars with
  | nil => exact Nat.le_refl 0
  | cons c chars ih =>
    have hc := size_writtenChar_le c
    rw [List.flatMap_cons, size_append, List.length_cons]
    omega

/-- A string is written with at most six octets a character and two quotes. -/
theorem size_writtenString_le (s : String) : size (writtenString s) ≤ 6 * s.length + 2 := by
  have hchars := size_flatMap_writtenChar_le s.toList
  have hquote : size ['"'] = 1 := rfl
  rw [String.length_toList] at hchars
  rw [writtenString, size_cons, size_append, hquote]
  have hfirst : ('"' : Char).utf8Size = 1 := rfl
  omega

/-- An integer that fits a word is written in no more than 84 octets. -/
theorem size_integer_le {n : Int} (h : Numeral.Fits n) :
    size (Value.writtenLeaf (.integer n)) ≤ 84 := by
  have hdigits : (Nat.toDigits 10 n.natAbs).length ≤ 20 := by
    refine (Nat.length_toDigits_le_iff (by decide) (by decide)).2 ?_
    obtain ⟨hlow, hhigh⟩ := h
    simp only [Word.bound63, Word.bound64] at hlow hhigh
    omega
  have hlength : (toString n).toList.length ≤ 21 := by
    rw [Numeral.toList_toString]
    split
    · rw [List.length_cons]
      omega
    · omega
  have hsize := size_le (toString n).toList
  show size (toString n).toList ≤ 84
  omega

/-- A binary64 number is written in no more than 104 octets. -/
theorem size_float_le (x : Decimal.Binary64) : size (Value.writtenLeaf (.float x)) ≤ 104 := by
  have hlength := x.length_text_le
  have hsize := size_le x.text.toList
  show size x.text.toList ≤ 104
  omega

/-! ### Values -/

/-- The least number of characters of a document. -/
def Document.weight (document : Document) : Nat :=
  Token.weights document.tokens

namespace Document

open Token (weights weights_nil weights_cons weights_append)

theorem weight_array (items : List Document) :
    (Document.array items).weight = weights (itemTokens items) + 2 := by
  simp only [weight, tokens, weights_nil, weights_cons, weights_append, Token.weight]
  omega

theorem weight_object (members : List (Option String × Document)) :
    (Document.object members).weight = weights (memberTokens members) + 2 := by
  simp only [weight, tokens, weights_nil, weights_cons, weights_append, Token.weight]
  omega

theorem weights_itemTokens_cons_cons (item other : Document) (others : List Document) :
    weights (itemTokens (item :: other :: others)) =
      item.weight + 1 + weights (itemTokens (other :: others)) := by
  simp only [itemTokens_cons_cons, weights_append, weights_cons, Token.weight, weight]
  omega

/-- A member weighs at least its name, two quotes, a colon and its value. -/
theorem weights_memberTokens_cons (name : String) (document : Document)
    (others : List (Option String × Document)) :
    name.length + 3 + document.weight + weights (memberTokens others) ≤
      weights (memberTokens ((some name, document) :: others)) := by
  cases others with
  | nil =>
    simp only [memberTokens, weights_nil, weights_cons, Token.weight, weight]
    omega
  | cons other others =>
    simp only [memberTokens_cons_cons, weights_append, weights_cons, Token.weight, weight]
    omega

end Document

namespace Value

/-- The number of octets that a member takes, with the comma behind it. -/
def memberExtent (level : Nat) (name : String) (value : Value) : Nat :=
  2 * level + 4 + size (writtenString name) + writtenSize prettyStyle level value

/-- The number of octets that members take, with the commas behind them. -/
def membersExtent (level : Nat) : Members → Nat
  | [] => 0
  | (name, value) :: others => memberExtent level name value + membersExtent level others

/-- Members are written within their extent. -/
theorem writtenMembersSize_le (level : Nat) : ∀ members : Members,
    writtenMembersSize prettyStyle level members ≤ membersExtent level members
  | [] => Nat.le_refl 0
  | [(name, value)] => by
    rw [writtenMembersSize, membersExtent, memberExtent, breakSize_prettyStyle,
      length_gap_prettyStyle]
    omega
  | (name, value) :: other :: others => by
    have hothers := writtenMembersSize_le level (other :: others)
    rw [writtenMembersSize_cons_cons, membersExtent, memberExtent, breakSize_prettyStyle,
      length_gap_prettyStyle]
    omega

/-- A member that is put takes no more than its own octets. -/
theorem membersExtent_put_le (level : Nat) (name : String) (value : Value) : ∀ members : Members,
    membersExtent level (members.put name value) ≤
      membersExtent level members + memberExtent level name value
  | [] => Nat.le_of_eq (Nat.add_comm _ _)
  | (key, old) :: others => by
    have hothers := membersExtent_put_le level name value others
    by_cases hname : key = name
    · rw [Members.put, if_pos hname, hname, membersExtent, membersExtent]
      omega
    · rw [Members.put, if_neg hname, membersExtent, membersExtent]
      omega

/-- The extent of a member is a multiple of what its tokens need. -/
theorem memberExtent_le {k level : Nat} (hk : 104 ≤ k) (hlevel : 2 * level + 2 ≤ k)
    (name : String) {value : Value} {weight : Nat}
    (h : writtenSize prettyStyle level value ≤ k * weight) :
    memberExtent level name value ≤ k * (name.length + 3 + weight) := by
  have hname := size_writtenString_le name
  have hchars : 6 * name.length ≤ k * name.length := Nat.mul_le_mul_right _ (by omega)
  rw [memberExtent, Nat.mul_add, Nat.mul_add]
  omega

end Value

/-! ### What is made of a document -/

section

variable {k : Nat} (hk : 104 ≤ k)

include hk

open Document (weights_itemTokens_cons_cons weights_memberTokens_cons)
open Token (weights)
open Value (prettyStyle writtenSize writtenItemsSize membersExtent)

/-- A scalar is written with so many octets for each unit of its weight. -/
theorem writtenSize_le_of_scalar {leaf : Scalar} {value : Value} (h : leaf.value? = some value)
    (level : Nat) : writtenSize prettyStyle level value ≤ k * (Document.scalar leaf).weight := by
  cases leaf with
  | null =>
    cases h
    show 4 ≤ k * 4
    omega
  | bool b =>
    cases h
    have hb : size (Value.writtenLeaf (.bool b)) ≤ 5 := by cases b <;> decide
    show size (Value.writtenLeaf (.bool b)) ≤ k * 4
    omega
  | text content =>
    obtain ⟨s, hs, rfl⟩ := Option.map_eq_some_iff.1 h
    obtain rfl : content = some s := hs
    have hs := size_writtenString_le s
    have hchars : 6 * s.length ≤ k * s.length := Nat.mul_le_mul_right _ (by omega)
    show size (writtenString s) ≤ k * (s.length + 2)
    rw [Nat.mul_add]
    omega
  | numeral numeral =>
    show _ ≤ k * 1
    rcases Numeral.value?_eq_some h with ⟨n, rfl⟩ | ⟨x, rfl⟩
    · have hn := size_integer_le (Numeral.fits_of_value? h)
      show size (Value.writtenLeaf (.integer n)) ≤ k * 1
      omega
    · have hx := size_float_le x
      show size (Value.writtenLeaf (.float x)) ≤ k * 1
      omega

mutual

/-- What is read from a document is laid out in a multiple of the characters that the document
needs, if its deepest line is not indented more. -/
theorem writtenSize_le_of_value? {depth level : Nat} (hlevel : 2 * (level + depth) + 2 ≤ k)
    {value : Value} : ∀ {document : Document}, document.value? depth = some value →
      writtenSize prettyStyle level value ≤ k * document.weight
  | .scalar leaf, h => writtenSize_le_of_scalar hk h level
  | .array items, h => by
    cases depth with
    | zero => simp [Document.value?] at h
    | succ depth =>
      rw [Document.value?] at h
      obtain ⟨values, hvalues, rfl⟩ := Option.map_eq_some_iff.1 h
      have hitems : writtenItemsSize prettyStyle (level + 1) values ≤ _ :=
        writtenItemsSize_le_of_itemValues? (by omega) hvalues
      rw [Document.weight_array, Nat.mul_add]
      cases values with
      | nil =>
        show 2 ≤ _
        omega
      | cons first others =>
        have hbreak := Value.breakSize_prettyStyle level
        rw [Value.writtenSize_array_cons]
        omega
  | .object members, h => by
    cases depth with
    | zero => simp [Document.value?] at h
    | succ depth =>
      rw [Document.value?] at h
      obtain ⟨read, hread, rfl⟩ := Option.map_eq_some_iff.1 h
      have hmembers : membersExtent (level + 1) read ≤ _ :=
        membersExtent_le_of_memberValues? (by omega) hread
      have hsize := Value.writtenMembersSize_le (level + 1) read
      rw [Document.weight_object, Nat.mul_add]
      cases read with
      | nil =>
        show 2 ≤ _
        omega
      | cons first others =>
        have hnone : membersExtent (level + 1) [] = 0 := rfl
        have hbreak := Value.breakSize_prettyStyle level
        rw [Value.writtenSize_object_cons]
        omega

/-- Items that were read are written within a multiple of what their tokens weigh. -/
theorem writtenItemsSize_le_of_itemValues? {depth level : Nat}
    (hlevel : 2 * (level + depth) + 2 ≤ k) {values : List Value} :
    ∀ {items : List Document}, Document.itemValues? depth items = some values →
      writtenItemsSize prettyStyle level values ≤
        k * weights (Document.itemTokens items) + (2 * level + 1)
  | [], h => by
    cases h
    exact Nat.zero_le _
  | [item], h => by
    rw [Document.itemValues?] at h
    split at h
    · rename_i value hvalue
      cases h
      have hitem := writtenSize_le_of_value? hlevel hvalue
      have hbreak := Value.breakSize_prettyStyle level
      show prettyStyle.breakSize level + writtenSize prettyStyle level value ≤
        k * item.weight + (2 * level + 1)
      omega
    · cases h
  | item :: other :: others, h => by
    rw [Document.itemValues?] at h
    split at h
    · rename_i value hvalue
      obtain ⟨rest, hrest, rfl⟩ := Option.map_eq_some_iff.1 h
      have hitem := writtenSize_le_of_value? hlevel hvalue
      have hothers := writtenItemsSize_le_of_itemValues? hlevel hrest
      have hbreak := Value.breakSize_prettyStyle level
      rw [weights_itemTokens_cons_cons, Nat.mul_add, Nat.mul_add]
      cases rest with
      | nil =>
        show prettyStyle.breakSize level + writtenSize prettyStyle level value ≤ _
        omega
      | cons next rest =>
        rw [Value.writtenItemsSize_cons_cons]
        omega
    · cases h

/-- Members that were read extend those before them by a multiple of what their tokens weigh. -/
theorem membersExtent_le_of_memberValues? {depth level : Nat}
    (hlevel : 2 * (level + depth) + 2 ≤ k) {before members : Members} :
    ∀ {documents : List (Option String × Document)},
      Document.memberValues? depth before documents = some members →
        membersExtent level members ≤
          membersExtent level before + k * weights (Document.memberTokens documents)
  | [], h => by
    cases h
    exact Nat.le_add_right _ _
  | (none, document) :: others, h => by
    simp [Document.memberValues?] at h
  | (some name, document) :: others, h => by
    cases hvalue : document.value? depth with
    | none => simp [Document.memberValues?, hvalue] at h
    | some value =>
      simp only [Document.memberValues?, hvalue] at h
      have hmember := writtenSize_le_of_value? hlevel hvalue
      have hextent := Value.memberExtent_le hk (by omega) name hmember
      have hput := Value.membersExtent_put_le level name value before
      have hothers := membersExtent_le_of_memberValues? hlevel h
      have hweight := Nat.mul_le_mul_left k (weights_memberTokens_cons name document others)
      rw [Nat.mul_add k (_ + _) (weights _)] at hweight
      omega

end

end

/-! ### What is made of a text -/

namespace Value

/-- The value of a JSON text that nests at most so deep. -/
def ofTextWithin? (depth : Nat) (s : String) : Option Value :=
  (Document.ofText? s).bind (Document.value? depth)

theorem ofTextWithin?_maxDepth (s : String) : ofTextWithin? maxDepth s = ofText? s := rfl

/-- The value of a text that nests at most `depth` deep is laid out, from a level on, in a multiple
of the characters of the text. -/
theorem writtenSize_le_of_ofTextWithin? {depth level k : Nat} (hk : 104 ≤ k)
    (hlevel : 2 * (level + depth) + 2 ≤ k) {s : String} {value : Value}
    (h : ofTextWithin? depth s = some value) :
    writtenSize prettyStyle level value ≤ k * s.length := by
  obtain ⟨document, hdocument, hvalue⟩ := Option.bind_eq_some_iff.1 h
  obtain ⟨tokens, htokens, hformed⟩ := Option.bind_eq_some_iff.1 hdocument
  obtain rfl := Document.ofTokens?_eq_some_iff.1 hformed
  have hweight := Token.weights_of_read? htokens
  rw [String.length_toList] at hweight
  exact Nat.le_trans (writtenSize_le_of_value? hk hlevel hvalue) (Nat.mul_le_mul_left k hweight)

end Value

end EvidenceSynthesis.Json
