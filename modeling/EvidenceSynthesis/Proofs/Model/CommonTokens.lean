import EvidenceSynthesis.Proofs.Model.Overlaps
import Mathlib

/-!
# Tokens in common

Overlaps are computed with matrices: each token gives a row with a one in the column of its number,
the rows of a set are added up, and the sums of the request and of the program are multiplied with
each other.

No number is that of two tokens, not even in a vocabulary that lists a token twice, so that the
product of two rows is one if they belong to the same token and zero otherwise
(`Corpus.product_row_row`).  The product of the sums therefore counts the tokens that both sides
have (`Corpus.product_presence`), which are the tokens in common (`Encoder.common`).
-/

namespace EvidenceSynthesis

theorem TokenSet.nodup_toList (set : TokenSet) : set.toList.Nodup :=
  set.sorted.imp fun h => String.ne_of_lt h

/-! ### Numbers of tokens -/

namespace Vocabulary

theorem lastPlace?_eq_none_iff {token : String} {start : Nat} {tokens : List String} :
    lastPlace? token start tokens = none ↔ token ∉ tokens := by
  induction tokens generalizing start with
  | nil => simp [lastPlace?]
  | cons other rest ih =>
    rw [lastPlace?, Option.or_eq_none_iff, ih, List.mem_cons, not_or, and_comm]
    simp [eq_comm]

/-- The tokens that have a number are those that are listed. -/
theorem isSome_index?_iff {vocabulary : Vocabulary} {token : String} :
    (vocabulary.index? token).isSome = true ↔ token ∈ vocabulary.tokens := by
  rw [Option.isSome_iff_ne_none, ne_eq, index?, lastPlace?_eq_none_iff, not_not]

/-- No number is that of two tokens. -/
theorem index?_injective {vocabulary : Vocabulary} {token other : String} {place : Nat}
    (h : vocabulary.index? token = some place) (hother : vocabulary.index? other = some place) :
    token = other :=
  Option.some.inj ((getElem?_of_index? h).symm.trans (getElem?_of_index? hother))

/-- The vocabulary of data lists the tokens that occur in it. -/
theorem mem_tokens_ofData {data : List (List String)} {token : String} :
    token ∈ (ofData data).tokens ↔ ∃ tokens ∈ data, token ∈ tokens := by
  simp [ofData, frequencies]

end Vocabulary

namespace Encoder

variable {encoder : Encoder} {token other : String}

/-- No two tokens share a column. -/
theorem column?_injective {place : Nat} (h : encoder.column? token = some place)
    (hother : encoder.column? other = some place) : token = other := by
  obtain ⟨vocabulary, hvocabulary, hplace⟩ := Option.bind_eq_some_iff.1 h
  rw [column?, hvocabulary] at hother
  exact Vocabulary.index?_injective hplace hother

theorem column?_lt {place : Nat} (h : encoder.column? token = some place) :
    place < encoder.width := by
  obtain ⟨vocabulary, hvocabulary, hplace⟩ := Option.bind_eq_some_iff.1 h
  rw [width, hvocabulary]
  exact Vocabulary.index?_lt hplace

end Encoder

/-! ### Products -/

namespace Corpus

/-- The order of the factors has no part in the product. -/
theorem product_comm (xs ys : List Nat) : product xs ys = product ys xs := by
  induction xs generalizing ys with
  | nil => cases ys <;> rfl
  | cons x xs ih =>
    cases ys with
    | nil => rfl
    | cons y ys => rw [product, product, ih, Nat.mul_comm]

/-- Products distribute over sums of rows. -/
theorem product_zipWith_add {xs ys : List Nat} (h : xs.length = ys.length) (zs : List Nat) :
    product (List.zipWith (· + ·) xs ys) zs = product xs zs + product ys zs := by
  induction xs generalizing ys zs with
  | nil =>
    rw [List.length_eq_zero_iff.1 h.symm]
    rfl
  | cons x xs ih =>
    obtain ⟨y, ys, rfl⟩ := List.exists_cons_of_length_eq_add_one h.symm
    cases zs with
    | nil => rfl
    | cons z zs =>
      rw [List.zipWith_cons_cons, product, product, product, ih (Nat.succ.inj h), Nat.add_mul]
      omega

theorem product_replicate_zero (n : Nat) (zs : List Nat) : product (List.replicate n 0) zs = 0 := by
  induction n generalizing zs with
  | zero => cases zs <;> rfl
  | succ n ih =>
    cases zs with
    | nil => rfl
    | cons z zs => rw [List.replicate_succ, product, ih, Nat.zero_mul]

/-- The product with a sum of rows is the sum of the products with the rows. -/
theorem product_columnSums {width : Nat} {rows : Rows} (h : ∀ row ∈ rows, row.length = width)
    (zs : List Nat) :
    product (Rows.columnSums width rows) zs = (rows.map fun row => product row zs).sum := by
  suffices hsums : ∀ sums : List Nat, sums.length = width →
      product (rows.foldl (List.zipWith (· + ·)) sums) zs =
        product sums zs + (rows.map fun row => product row zs).sum by
    rw [Rows.columnSums, hsums _ List.length_replicate, product_replicate_zero, Nat.zero_add]
  induction rows with
  | nil =>
    intro sums _
    rfl
  | cons row rest ih =>
    intro sums hlength
    obtain ⟨hrow, hrest⟩ := List.forall_mem_cons.1 h
    have hadded : (List.zipWith (· + ·) sums row).length = width := by
      rw [List.length_zipWith, hlength, hrow, Nat.min_self]
    rw [List.foldl_cons, ih hrest _ hadded, product_zipWith_add (hlength.trans hrow.symm),
      List.map_cons, List.sum_cons, Nat.add_assoc]

/-- The product with a row that has a single one picks an entry. -/
theorem product_indicator (column : Option Nat) (zs : List Nat) :
    product ((List.range zs.length).map fun k => if column = some k then 1 else 0) zs =
      (column.bind fun k => zs[k]?).getD 0 := by
  induction zs generalizing column with
  | nil => cases column <;> rfl
  | cons z zs ih =>
    rw [List.length_cons, List.range_succ_eq_map, List.map_cons, List.map_map, product]
    cases column with
    | none =>
      have hrest := ih none
      simp only [reduceCtorEq, if_false] at hrest
      simpa [Function.comp_def] using hrest
    | some place =>
      cases place with
      | zero =>
        have hrest := ih none
        simp only [reduceCtorEq, if_false] at hrest
        simpa [Function.comp_def] using hrest
      | succ place =>
        have hrest := ih (some place)
        simpa [Function.comp_def] using hrest

section

variable {encoder : Encoder}

/-- The product with the row of a token picks the entry in the column of the token. -/
theorem product_row (token : String) {zs : List Nat} (h : zs.length = encoder.width) :
    product (encoder.row token) zs = ((encoder.column? token).bind fun k => zs[k]?).getD 0 := by
  rw [Encoder.row, ← h]
  exact product_indicator _ zs

/-- The product of the rows of two tokens is one if they are the same token and it has a number. -/
theorem product_row_row (token other : String) :
    product (encoder.row token) (encoder.row other) =
      if token = other ∧ (encoder.column? token).isSome = true then 1 else 0 := by
  rw [product_row token (encoder.length_row other)]
  cases hcolumn : encoder.column? token with
  | none => simp
  | some place =>
    have hplace := Encoder.column?_lt hcolumn
    have hother : encoder.column? other = some place ↔ token = other := by
      constructor
      · exact Encoder.column?_injective hcolumn
      · rintro rfl
        exact hcolumn
    simp [Encoder.row, hplace, hother]

/-- The product with the sum of the rows of tokens is the sum of the products with the rows. -/
theorem product_presence_left (tokens : List String) (zs : List Nat) :
    product (encoder.presence tokens) zs =
      ((tokens.take encoder.height).map fun token => product (encoder.row token) zs).sum := by
  rw [Encoder.presence, product_columnSums fun _ => Encoder.length_of_mem_rows, Encoder.rows,
    List.map_map]
  rfl

/-- Of different tokens at most one is a given one. -/
theorem sum_indicator {tokens : List String} (h : tokens.Nodup) (token : String) (p : Prop)
    [Decidable p] :
    (tokens.map fun other => if token = other ∧ p then 1 else 0).sum =
      if token ∈ tokens ∧ p then 1 else 0 := by
  induction tokens with
  | nil => simp
  | cons other rest ih =>
    obtain ⟨habsent, hrest⟩ := List.nodup_cons.1 h
    rw [List.map_cons, List.sum_cons, ih hrest]
    by_cases htoken : token = other
    · subst htoken
      simp [habsent]
    · simp [htoken]

/-- The product with the row of a token tells whether the token is among those that are taken. -/
theorem product_row_presence {tokens : List String} (h : tokens.Nodup) (token : String) :
    product (encoder.row token) (encoder.presence tokens) =
      if token ∈ tokens.take encoder.height ∧ (encoder.column? token).isSome = true then 1
      else 0 := by
  rw [product_comm, product_presence_left, ← sum_indicator (h.sublist (List.take_sublist ..))]
  refine congrArg List.sum (List.map_congr_left fun other _ => ?_)
  rw [product_comm, product_row_row]

/-- The product of the sums counts the tokens that are taken on both sides and have a number. -/
theorem product_presence {requested : List String} (h : requested.Nodup) (derived : List String) :
    product (encoder.presence requested) (encoder.presence derived) =
      (derived.take encoder.height).countP fun token =>
        token ∈ requested.take encoder.height ∧ (encoder.column? token).isSome = true := by
  rw [product_comm, product_presence_left]
  induction derived.take encoder.height with
  | nil => rfl
  | cons token rest ih =>
    rw [List.map_cons, List.sum_cons, ih, product_row_presence h, List.countP_cons, Nat.add_comm]
    simp only [decide_eq_true_eq]

end

/-- The products over all encoders are the sum of those of the encoders. -/
theorem productSum_presences (encoders : List Encoder) (requested derived : Evidence) :
    productSum (presences encoders requested) (presences encoders derived) =
      (encoders.map fun encoder =>
        product (encoder.presence (requested.get encoder.kind).toList)
          (encoder.presence (derived.get encoder.kind).toList)).sum := by
  induction encoders with
  | nil => rfl
  | cons encoder encoders ih =>
    rw [List.map_cons, List.sum_cons, ← ih]
    rfl

end Corpus

/-! ### Tokens in common -/

namespace Encoder

/-- The tokens that an encoder takes: as many as it has rows, the first ones by code point. -/
def taken (encoder : Encoder) (evidence : Evidence) : List String :=
  (evidence.get encoder.kind).toList.take encoder.height

/-- A token is in the vocabulary of an encoder, if the encoder has one. -/
def Admits (encoder : Encoder) (token : String) : Prop :=
  ∀ vocabulary ∈ encoder.vocabulary, token ∈ vocabulary.tokens

instance (encoder : Encoder) : DecidablePred encoder.Admits := fun token =>
  inferInstanceAs (Decidable (∀ vocabulary ∈ encoder.vocabulary, token ∈ vocabulary.tokens))

/-- The tokens that an encoder takes of both sides and that are in its vocabulary. -/
def common (encoder : Encoder) (requested derived : Evidence) : Finset String :=
  ((encoder.taken requested).toFinset ∩ (encoder.taken derived).toFinset).filter encoder.Admits

variable {encoder : Encoder}

theorem nodup_taken (evidence : Evidence) : (encoder.taken evidence).Nodup :=
  (evidence.get encoder.kind).nodup_toList.sublist (List.take_sublist ..)

/-- Common tokens are taken from both and have a column. -/
theorem mem_common {requested derived : Evidence} {token : String} :
    token ∈ encoder.common requested derived ↔
      token ∈ encoder.taken requested ∧ token ∈ encoder.taken derived ∧ encoder.Admits token := by
  simp [common, and_assoc]

/-- With a vocabulary, the tokens that have a column are those in it. -/
theorem isSome_column?_iff {vocabulary : Vocabulary} (h : encoder.vocabulary = some vocabulary)
    {token : String} : (encoder.column? token).isSome = true ↔ encoder.Admits token := by
  rw [column?, h, Option.bind_some, Vocabulary.isSome_index?_iff, Admits, h]
  simp

/-- The product of the sums is the number of tokens in common. -/
theorem product_presence_eq_card {vocabulary : Vocabulary}
    (h : encoder.vocabulary = some vocabulary) (requested derived : Evidence) :
    Corpus.product (encoder.presence (requested.get encoder.kind).toList)
        (encoder.presence (derived.get encoder.kind).toList) =
      (encoder.common requested derived).card := by
  have hcommon : encoder.common requested derived =
      ((encoder.taken derived).filter fun token =>
        token ∈ encoder.taken requested ∧ (encoder.column? token).isSome = true).toFinset := by
    ext token
    simp only [mem_common, List.mem_toFinset, List.mem_filter, decide_eq_true_eq,
      isSome_column?_iff h]
    tauto
  rw [Corpus.product_presence (TokenSet.nodup_toList _), hcommon,
    List.toFinset_card_of_nodup ((nodup_taken derived).filter _), List.countP_eq_length_filter]
  rfl

end Encoder

/-- How many tokens two sides have in common, over all encoders. -/
def ModelConfig.overlap (config : ModelConfig) (requested derived : Evidence) : Nat :=
  (config.encoders.map fun encoder => (encoder.common requested derived).card).sum

end EvidenceSynthesis
