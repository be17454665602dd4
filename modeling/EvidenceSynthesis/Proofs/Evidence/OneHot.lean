import EvidenceSynthesis.Proofs.Evidence.Matrices
import Mathlib

/-!
# Entries of encoded tokens

The matrix of tokens, the matrices of lists of tokens and the presence of tokens are arrays of
numbers.  An entry of an array is found by its position, the last axis running fastest
(`Tensor.get?`), and the entries along the first axis are those of arrays with one axis less
(`Tensor.get?_cons`).

All three arrays follow one rule: a token that is taken puts a one into its row and the column of
its number, and nothing else does (`Encoder.getElem?_encode`).  The entries of the matrix are read
off the rule, a slice of the matrices is the matrix of its own list, whatever the other lists are
(`Encoder.isStack`), and the presence counts in each column the tokens that are taken and have its
number (`Encoder.presence_eq_map_countP`).

There has to be memory for the arrays; that is all their making may fail for.
-/

namespace EvidenceSynthesis

/-! ### Positions -/

namespace Shape

/-- The place of a position among the entries; none if there is no such position. -/
def place? : Shape → List Nat → Option Nat
  | [], [] => some 0
  | length :: rest, i :: position =>
    if i < length then (place? rest position).map (i * volume rest + ·) else none
  | _, _ => none

/-- Each position has a place. -/
theorem place?_lt {shape : Shape} {position : List Nat} {place : Nat}
    (h : shape.place? position = some place) : place < shape.volume := by
  induction shape generalizing position place with
  | nil =>
    obtain _ | ⟨i, position⟩ := position
    · obtain rfl : 0 = place := Option.some.inj h
      exact Nat.one_pos
    · exact nomatch h
  | cons length rest ih =>
    obtain _ | ⟨i, position⟩ := position
    · exact nomatch h
    · rw [place?, Option.ite_none_right_eq_some, Option.map_eq_some_iff] at h
      obtain ⟨hi, inner, hinner, rfl⟩ := h
      calc i * volume rest + inner < i * volume rest + volume rest :=
            Nat.add_lt_add_left (ih hinner) _
        _ = (i + 1) * volume rest := (Nat.succ_mul i _).symm
        _ ≤ length * volume rest := Nat.mul_le_mul_right _ hi

/-- There is memory for the slices of what there is memory for. -/
theorem fits_of_fits_cons {n : Nat} {shape : Shape} (hn : 0 < n)
    (h : fits (n :: shape) = true) : fits shape = true := by
  have hextent : extent (n :: shape) = n * extent shape := by
    simp [extent, volume, hn]
  have hvolume : volume (n :: shape) = n * volume shape := rfl
  have hle : ∀ m : Nat, m ≤ n * m := fun m => Nat.le_mul_of_pos_left m hn
  simp only [fits, Bool.and_eq_true, decide_eq_true_eq, hextent, hvolume] at h ⊢
  have hextentLe := hle (extent shape)
  have hvolumeLe := Nat.mul_le_mul_left entrySize (hle (volume shape))
  omega

end Shape

/-- Of lists with the same length, one list follows the other. -/
theorem getElem?_flatten_of_length {α : Type} {blocks : List (List α)} {size : Nat}
    (h : ∀ block ∈ blocks, block.length = size) (i : Nat) {place : Nat} (hplace : place < size) :
    blocks.flatten[i * size + place]? = blocks[i]?.bind fun block => block[place]? := by
  induction blocks generalizing i with
  | nil => simp
  | cons block rest ih =>
    obtain ⟨hblock, hrest⟩ := List.forall_mem_cons.1 h
    rw [List.flatten_cons]
    obtain _ | i := i
    · rw [Nat.zero_mul, Nat.zero_add, List.getElem?_append_left (by omega)]
      rfl
    · have hbehind : (i + 1) * size + place = size + (i * size + place) := by
        rw [Nat.succ_mul]
        omega
      rw [hbehind, ← hblock, List.getElem?_append_right (Nat.le_add_right _ _),
        Nat.add_sub_cancel_left, hblock, ih hrest, List.getElem?_cons_succ]

theorem length_flatten_of_length {α : Type} {blocks : List (List α)} {size : Nat}
    (h : ∀ block ∈ blocks, block.length = size) :
    blocks.flatten.length = blocks.length * size := by
  rw [List.length_flatten, List.map_congr_left h, List.map_const', List.sum_replicate,
    smul_eq_mul]

namespace Tensor

/-- The entry at a position; none if there is no such position. -/
def get? (tensor : Tensor) (position : List Nat) : Option Nat :=
  (tensor.shape.place? position).bind fun place => tensor.entries[place]?

/-- The entries along the first axis are those of the slices. -/
theorem get?_cons {blocks : List (List Nat)} {shape : Shape}
    (h : ∀ block ∈ blocks, block.length = shape.volume) (i : Nat) (position : List Nat) :
    (⟨blocks.length :: shape, blocks.flatten⟩ : Tensor).get? (i :: position) =
      blocks[i]?.bind fun block => (⟨shape, block⟩ : Tensor).get? position := by
  simp only [get?, Shape.place?]
  by_cases hi : i < blocks.length
  · rw [if_pos hi, List.getElem?_eq_getElem hi, Option.bind_some]
    cases hplace : shape.place? position with
    | none => rfl
    | some place =>
      rw [Option.map_some, Option.bind_some, Option.bind_some,
        getElem?_flatten_of_length h i (Shape.place?_lt hplace), List.getElem?_eq_getElem hi,
        Option.bind_some]
  · rw [if_neg hi, List.getElem?_eq_none (Nat.le_of_not_lt hi)]
    rfl

/-- The entries of an array with a single axis are those of its list. -/
theorem get?_singleton (entries : List Nat) (k : Nat) :
    (⟨[entries.length], entries⟩ : Tensor).get? [k] = entries[k]? := by
  simp only [get?, Shape.place?, Shape.volume]
  split
  · simp
  · rename_i hk
    rw [List.getElem?_eq_none (Nat.le_of_not_lt hk)]
    rfl

end Tensor

/-- The sums of the columns of rows with `width` places, as words of 32 bits. -/
def Rows.columnSums32 (width : Nat) (rows : Rows) : List Int32 :=
  rows.foldl (fun sums row => List.zipWith (fun sum entry => sum + Int32.ofNat entry) sums row)
    (List.replicate width 0)

/-- Sums of columns in 32 bits are the true sums, taken as words. -/
theorem Rows.columnSums32_eq (width : Nat) (rows : Rows) :
    columnSums32 width rows = (columnSums width rows).map Int32.ofNat := by
  have hfold : ∀ sums : List Nat,
      rows.foldl (fun sums row =>
          List.zipWith (fun sum entry => sum + Int32.ofNat entry) sums row)
        (sums.map Int32.ofNat) =
      (rows.foldl (List.zipWith (· + ·)) sums).map Int32.ofNat := by
    induction rows with
    | nil => exact fun _ => rfl
    | cons row rest ih =>
      intro sums
      rw [List.foldl_cons, List.foldl_cons, ← ih, List.map_zipWith, List.zipWith_map_left]
      simp only [Int32.ofNat_add]
  have hzeros := hfold (List.replicate width 0)
  rw [List.map_replicate] at hzeros
  exact hzeros

namespace Encoder

variable {encoder : Encoder} {tokens : List String} {token : String} {j k : Nat}

/-! ### The matrix of tokens -/

/-- The entries of the row of a token. -/
theorem getElem?_row (encoder : Encoder) (token : String) (hk : k < encoder.width) :
    (encoder.row token)[k]? = some (if encoder.column? token = some k then 1 else 0) := by
  simp [row, hk]

/-- The rows of the matrix are those of the tokens that are taken, and rows of zeros. -/
theorem getElem?_encode (encoder : Encoder) (tokens : List String) (hj : j < encoder.height) :
    (encoder.encode tokens)[j]? =
      some ((tokens[j]?.map encoder.row).getD (List.replicate encoder.width 0)) := by
  rw [encode, List.getElem?_append]
  split
  · rename_i hlt
    have htoken : j < tokens.length := by
      simp only [rows, List.length_map, List.length_take] at hlt
      omega
    simp [rows, List.getElem?_take_of_lt hj, htoken]
  · rename_i hge
    have hnone : tokens.length ≤ j := by
      simp only [rows, List.length_map, List.length_take] at hge
      omega
    rw [List.getElem?_replicate, if_pos (by omega), List.getElem?_eq_none hnone]
    rfl

theorem length_of_mem_encode {row : List Nat} (h : row ∈ encoder.encode tokens) :
    row.length = encoder.width := by
  rcases List.mem_append.1 h with hrow | hzeros
  · exact length_of_mem_rows hrow
  · rw [List.eq_of_mem_replicate hzeros, List.length_replicate]

/-- The matrix of tokens, one row after the other. -/
theorem matrix?_of_fits (h : encoder.fits = true) (tokens : List String) :
    encoder.matrix? tokens = some ⟨encoder.shape, (encoder.encode tokens).flatten⟩ := by
  rw [matrix?, if_pos h, flatten_encode]

/-- A matrix has as many entries as its shape says. -/
theorem length_entries (encoder : Encoder) (tokens : List String) :
    (encoder.entries tokens).length = encoder.shape.volume := by
  rw [← flatten_encode, length_flatten_of_length fun _ => length_of_mem_encode, length_encode,
    shape, Shape.volume, Shape.volume, Shape.volume, Nat.mul_one]

/-- The entry of the matrix at a row and a column is the one of the row. -/
theorem get?_entries (encoder : Encoder) (tokens : List String) (j k : Nat) :
    (⟨encoder.shape, encoder.entries tokens⟩ : Tensor).get? [j, k] =
      (encoder.encode tokens)[j]?.bind fun row => row[k]? := by
  have hlength : ∀ row ∈ encoder.encode tokens, row.length = Shape.volume [encoder.width] := by
    intro row hrow
    rw [length_of_mem_encode hrow, Shape.volume, Shape.volume, Nat.mul_one]
  have hcons := Tensor.get?_cons hlength j [k]
  rw [length_encode, flatten_encode] at hcons
  rw [shape, hcons]
  refine Option.bind_congr fun row hrow => ?_
  rw [← length_of_mem_encode (List.mem_of_getElem? hrow)]
  exact Tensor.get?_singleton row k

/-- An entry of the matrix is one exactly if the token of its row has the number of its column. -/
theorem get?_entries_eq_ite (encoder : Encoder) (tokens : List String) (j k : Nat) :
    (⟨encoder.shape, encoder.entries tokens⟩ : Tensor).get? [j, k] =
      if j < encoder.height ∧ k < encoder.width then
        some (if tokens[j]?.bind encoder.column? = some k then 1 else 0)
      else none := by
  rw [get?_entries]
  by_cases hj : j < encoder.height
  · rw [getElem?_encode encoder tokens hj, Option.bind_some]
    by_cases hk : k < encoder.width
    · rw [if_pos ⟨hj, hk⟩]
      cases htoken : tokens[j]? with
      | none => simp [hk]
      | some token => exact encoder.getElem?_row token hk
    · -- all rows have the same width, those of tokens and those of zeros
      rw [if_neg fun hboth => hk hboth.2]
      refine List.getElem?_eq_none ?_
      cases tokens[j]? <;> simpa using hk
  · rw [if_neg fun hboth => hj hboth.1, List.getElem?_eq_none (by rw [length_encode]; omega)]
    rfl

/-- How tokens are encoded: each of those that are taken has a one in its row and the column of its
number. -/
structure IsOneHot (encoder : Encoder) (tokens : List String) (matrix : Tensor) : Prop where
  shape : matrix.shape = [encoder.height, encoder.width]
  length : matrix.entries.length = encoder.height * encoder.width
  /-- An entry is one exactly if the token of its row has the number of its column. -/
  entry : ∀ j k, matrix.get? [j, k] =
    if j < encoder.height ∧ k < encoder.width then
      some (if tokens[j]?.bind encoder.column? = some k then 1 else 0)
    else none
  /-- No row has a second one. -/
  single : ∀ j k other, matrix.get? [j, k] = some 1 → matrix.get? [j, other] = some 1 →
    k = other
  /-- The ones can be written one after another, and each of them into the matrix. -/
  filled : (encoder.filled? tokens).map List.flatten = some matrix.entries
  /-- The tokens behind the last row do not count. -/
  taken : encoder.matrix? (tokens.take encoder.height) = some matrix

/-- Tokens beyond the encoder's height leave no trace. -/
theorem encode_take (encoder : Encoder) (tokens : List String) :
    encoder.encode (tokens.take encoder.height) = encoder.encode tokens := by
  simp only [encode, rows, List.take_take, Nat.min_self]

/-- What an encoder makes of tokens is their one-hot matrix. -/
theorem isOneHot (h : encoder.fits = true) (tokens : List String) :
    encoder.IsOneHot tokens ⟨encoder.shape, encoder.entries tokens⟩ := by
  have hentry := encoder.get?_entries_eq_ite tokens
  refine ⟨rfl, ?_, hentry, ?_, ?_, ?_⟩
  · simpa [Encoder.shape, Shape.volume] using encoder.length_entries tokens
  · intro j k other hk hother
    rw [hentry] at hk hother
    grind
  · rw [filled?_eq, Option.map_some, flatten_encode]
  · rw [matrix?_of_fits h, encode_take, flatten_encode]

/-! ### The matrices of lists of tokens -/

/-- Puts the matrices of lists of tokens into the slices from `i` on; none if there is no such
slice. -/
def assign? (encoder : Encoder) : List (List String) → Nat → List Rows → Option (List Rows)
  | [], _, slices => some slices
  | tokens :: rest, i, slices =>
    if i < slices.length then
      (encoder.filled? tokens).bind fun rows => encoder.assign? rest (i + 1) (slices.set i rows)
    else none

/-- Matrices are put behind those that are there, one after another, as long as there are slices. -/
theorem assign?_append (encoder : Encoder) (data : List (List String)) (first rest : List Rows)
    (h : rest.length = data.length) :
    encoder.assign? data first.length (first ++ rest) = some (first ++ encoder.encodeAll data) := by
  induction data generalizing first rest with
  | nil =>
    rw [List.length_eq_zero_iff.1 h]
    rfl
  | cons tokens data ih =>
    obtain ⟨rows, rest, rfl⟩ := List.exists_cons_of_length_eq_add_one h
    have hnext := ih (first ++ [encoder.encode tokens]) rest (Nat.succ.inj h)
    rw [List.length_append, List.length_singleton] at hnext
    rw [assign?, if_pos (by simp), filled?_eq, Option.bind_some,
      List.set_append_right _ _ (Nat.le_refl _), Nat.sub_self, List.set_cons_zero,
      List.append_cons first, hnext]
    simp [encodeAll]

theorem forall_length_entries (encoder : Encoder) (data : List (List String)) :
    ∀ block ∈ data.map encoder.entries, block.length = encoder.shape.volume :=
  List.forall_mem_map.2 fun tokens _ => encoder.length_entries tokens

/-- The entries of the matrices of lists of tokens are those of the matrix of one of the lists. -/
theorem get?_flatMap_entries (encoder : Encoder) (data : List (List String)) (i : Nat)
    (position : List Nat) :
    (⟨data.length :: encoder.shape, data.flatMap encoder.entries⟩ : Tensor).get?
        (i :: position) =
      data[i]?.bind fun tokens =>
        (⟨encoder.shape, encoder.entries tokens⟩ : Tensor).get? position := by
  have hcons := Tensor.get?_cons (encoder.forall_length_entries data) i position
  rw [List.length_map, ← List.flatMap_def, List.getElem?_map, Option.bind_map] at hcons
  exact hcons

/-- How lists of tokens are encoded: each slice is the matrix of its list. -/
structure IsStack (encoder : Encoder) (data : List (List String)) (tensor : Tensor) : Prop where
  shape : tensor.shape = [data.length, encoder.height, encoder.width]
  length : tensor.entries.length = data.length * (encoder.height * encoder.width)
  /-- Where there is a list, the slice is the matrix of this list. -/
  slice : ∀ i tokens, data[i]? = some tokens → ∃ matrix, encoder.matrix? tokens = some matrix ∧
    ∀ position, tensor.get? (i :: position) = matrix.get? position
  /-- There are no further slices. -/
  outside : ∀ i position, data.length ≤ i → tensor.get? (i :: position) = none
  /-- The matrices can be put one after another into slices of zeros. -/
  assigned : (encoder.assign? data 0 (List.replicate data.length
      (List.replicate encoder.height (List.replicate encoder.width 0)))).map
    (fun slices => (slices.map List.flatten).flatten) = some tensor.entries

/-- What an encoder makes of several lists of tokens is the stack of their matrices. -/
theorem isStack {data : List (List String)}
    (h : Shape.fits (data.length :: encoder.shape) = true) :
    encoder.IsStack data ⟨data.length :: encoder.shape, data.flatMap encoder.entries⟩ := by
  have hentry := encoder.get?_flatMap_entries data
  refine ⟨rfl, ?_, ?_, ?_, ?_⟩
  · have hflatten := length_flatten_of_length (encoder.forall_length_entries data)
    rw [← List.flatMap_def, List.length_map] at hflatten
    simpa [Encoder.shape, Shape.volume] using hflatten
  · intro i tokens hi
    have hpos : 0 < data.length := Nat.zero_lt_of_lt (List.getElem?_eq_some_iff.1 hi).1
    have hfits : encoder.fits = true := Shape.fits_of_fits_cons hpos h
    refine ⟨_, if_pos hfits, fun position => ?_⟩
    rw [hentry, hi, Option.bind_some]
  · intro i position hi
    rw [hentry, List.getElem?_eq_none hi]
    rfl
  · have hassign := encoder.assign?_append data [] _ (List.length_replicate (n := data.length)
      (a := List.replicate encoder.height (List.replicate encoder.width 0)))
    rw [List.nil_append, List.length_nil] at hassign
    rw [hassign, List.nil_append, encodeAll, Option.map_some, List.map_map, List.flatMap_def]
    refine congrArg (fun blocks => some (List.flatten blocks)) ?_
    exact List.map_congr_left fun tokens _ => encoder.flatten_encode tokens

/-! ### The presence of tokens -/

theorem sum_map_ite_eq_countP {α : Type} (p : α → Prop) [DecidablePred p] (items : List α) :
    (items.map fun item => if p item then 1 else 0).sum = items.countP fun item => p item := by
  induction items with
  | nil => rfl
  | cons item rest ih =>
    rw [List.map_cons, List.sum_cons, ih, List.countP_cons, Nat.add_comm]
    simp only [decide_eq_true_eq]

/-- Each column counts the tokens that are taken and have its number. -/
theorem presence_eq_map_countP (encoder : Encoder) (tokens : List String) :
    encoder.presence tokens = (List.range encoder.width).map fun k =>
      (tokens.take encoder.height).countP fun token => encoder.column? token = some k := by
  refine List.ext_getElem (by simp) fun k hk _ => ?_
  have hpick := Corpus.product_indicator (some k) (encoder.presence tokens)
  rw [Option.bind_some, List.getElem?_eq_getElem hk, Option.getD_some, Corpus.product_comm,
    Corpus.product_presence_left] at hpick
  rw [← hpick, List.getElem_map, List.getElem_range, ← sum_map_ite_eq_countP]
  refine congrArg List.sum (List.map_congr_left fun token _ => ?_)
  rw [Corpus.product_row token (by simp)]
  cases hcolumn : encoder.column? token with
  | none => rfl
  | some place => simp [column?_lt hcolumn, eq_comm]

theorem product_replicate_one (entries : List Nat) :
    Corpus.product entries (List.replicate entries.length 1) = entries.sum := by
  induction entries with
  | nil => rfl
  | cons entry rest ih =>
    rw [List.length_cons, List.replicate_succ, Corpus.product, ih, Nat.mul_one, List.sum_cons]

/-- The tokens that have a column. -/
def listed (encoder : Encoder) : List String :=
  match encoder.vocabulary with
  | some vocabulary => vocabulary.tokens
  | none => []

theorem isSome_column?_iff_listed :
    (encoder.column? token).isSome = true ↔ token ∈ encoder.listed := by
  unfold column? listed
  cases encoder.vocabulary with
  | none => simp
  | some vocabulary => exact Vocabulary.isSome_index?_iff

/-- The columns together count the tokens that are taken and have one. -/
theorem sum_presence (encoder : Encoder) (tokens : List String) :
    (encoder.presence tokens).sum =
      (tokens.take encoder.height).countP fun token => token ∈ encoder.listed := by
  rw [← product_replicate_one, length_presence, Corpus.product_presence_left,
    ← sum_map_ite_eq_countP]
  refine congrArg List.sum (List.map_congr_left fun token _ => ?_)
  rw [Corpus.product_row token List.length_replicate]
  simp only [← isSome_column?_iff_listed]
  cases hcolumn : encoder.column? token with
  | none => rfl
  | some place => simp [column?_lt hcolumn]

/-- The presence of tokens depends on how often the tokens are taken, not on their order. -/
theorem presence_of_perm {others : List String}
    (h : (others.take encoder.height).Perm (tokens.take encoder.height)) :
    encoder.presence others = encoder.presence tokens := by
  rw [presence_eq_map_countP, presence_eq_map_countP]
  exact List.map_congr_left fun k _ => h.countP_eq _

/-- Of different tokens no two have the same number. -/
theorem countP_column?_le_one (h : tokens.Nodup) (k : Nat) :
    (tokens.countP fun token => encoder.column? token = some k) ≤ 1 := by
  by_cases hfound : ∃ token ∈ tokens, encoder.column? token = some k
  · obtain ⟨token, -, htoken⟩ := hfound
    calc (tokens.countP fun other => encoder.column? other = some k) ≤ tokens.count token := by
          refine List.countP_mono_left fun other _ hother => ?_
          rw [beq_iff_eq]
          exact column?_injective (of_decide_eq_true hother) htoken
      _ ≤ 1 := List.nodup_iff_count_le_one.1 h token
  · have hnone : (tokens.countP fun token => encoder.column? token = some k) = 0 := by
      rw [List.countP_eq_zero]
      intro token htoken hcolumn
      exact hfound ⟨token, htoken, of_decide_eq_true hcolumn⟩
    rw [hnone]
    exact Nat.zero_le 1

/-- How the presence of tokens is counted. -/
structure IsPresence (encoder : Encoder) (tokens : List String) (counts : List Nat) : Prop where
  length : counts.length = encoder.width
  /-- A column counts the tokens that are taken and have its number. -/
  count : ∀ k < encoder.width, counts[k]? =
    some ((tokens.take encoder.height).countP fun token => encoder.column? token = some k)
  /-- The columns together count the tokens that are taken and in the vocabulary. -/
  total : counts.sum = (tokens.take encoder.height).countP fun token => token ∈ encoder.listed
  /-- The order of the tokens that are taken does not count, nor do the tokens behind them. -/
  perm : ∀ others, (others.take encoder.height).Perm (tokens.take encoder.height) →
    encoder.presence? others = some counts
  /-- Different tokens are present or not. -/
  le_one : (tokens.take encoder.height).Nodup → ∀ count ∈ counts, count ≤ 1
  /-- The counts are the sums over the rows of the matrix. -/
  sums : counts = Rows.columnSums encoder.width (encoder.encode tokens)
  /-- Words of 32 bits can hold the sums, unless too many tokens are taken for such a word. -/
  words : min encoder.height tokens.length < 2 ^ 31 →
    (Rows.columnSums32 encoder.width (encoder.encode tokens)).map Int32.toInt =
      counts.map Int.ofNat

/-- What an encoder sums up is the presence vector of the tokens. -/
theorem isPresence (h : encoder.fits = true) (tokens : List String) :
    encoder.IsPresence tokens (encoder.presence tokens) := by
  have hcount := encoder.presence_eq_map_countP tokens
  refine ⟨encoder.length_presence tokens, fun k hk => ?_, encoder.sum_presence tokens,
    fun others hperm => ?_, fun hnodup count hmem => ?_, (encoder.columnSums_encode tokens).symm,
    fun hlength => ?_⟩
  · rw [hcount, List.getElem?_map, List.getElem?_range hk, Option.map_some]
  · rw [presence?, if_pos h, presence_of_perm hperm]
  · rw [hcount] at hmem
    obtain ⟨k, -, rfl⟩ := List.mem_map.1 hmem
    exact countP_column?_le_one hnodup k
  · rw [Rows.columnSums32_eq, columnSums_encode, List.map_map]
    refine List.map_congr_left fun count hmem => ?_
    have hle : count ≤ min encoder.height tokens.length := by
      rw [hcount] at hmem
      obtain ⟨k, -, rfl⟩ := List.mem_map.1 hmem
      rw [← List.length_take]
      exact List.countP_le_length
    exact Int32.toInt_ofNat_of_lt (Nat.lt_of_le_of_lt hle hlength)

/-! ### All arrays of an encoder -/

/-- What an encoder answers, whatever its vocabulary and the number of its rows are.

If there is memory for the matrix of tokens, it has a one for each token that is taken, in its row
and the column of its number, and the presence counts in each column the tokens that are taken and
have its number.  If there is memory for the matrices of lists of tokens, each of them is the matrix
of its own list.  There is no answer exactly if there is no memory. -/
theorem encodes_one_hot (encoder : Encoder) :
    (∀ tokens, encoder.fits = true →
      ∃ matrix counts, encoder.matrix? tokens = some matrix ∧ encoder.IsOneHot tokens matrix ∧
        encoder.presence? tokens = some counts ∧ encoder.IsPresence tokens counts) ∧
    (∀ data, Shape.fits [data.length, encoder.height, encoder.width] = true →
      ∃ tensor, encoder.matrices? data = some tensor ∧ encoder.IsStack data tensor) ∧
    (∀ tokens, encoder.fits = false →
      encoder.matrix? tokens = none ∧ encoder.presence? tokens = none) ∧
    ∀ data, Shape.fits [data.length, encoder.height, encoder.width] = false →
      encoder.matrices? data = none := by
  refine ⟨fun tokens h => ?_, fun data h => ?_, fun tokens h => ?_, fun data h => ?_⟩
  · exact ⟨_, _, if_pos h, isOneHot h tokens, if_pos h, isPresence h tokens⟩
  · exact ⟨_, if_pos h, isStack h⟩
  · exact ⟨if_neg (by simp [h]), if_neg (by simp [h])⟩
  · refine if_neg ?_
    rw [shape, h]
    exact Bool.false_ne_true

/-- An encoder with two rows, whose vocabulary lists a token twice, is given more tokens than it
has rows. -/
theorem encodes_one_hot_repeating :
    let encoder : Encoder := ⟨.types, 8, 1, 2, some ⟨["a", "b", "a"]⟩⟩
    encoder.fits = true ∧ Shape.fits [2, encoder.height, encoder.width] = true ∧
    (["x", "a"] : List String).Perm ["a", "x"] ∧
    ∃ matrix counts tensor, encoder.matrix? ["a", "x", "b"] = some matrix ∧
      matrix.get? [0, 2] = some 1 ∧ matrix.get? [0, 0] = some 0 ∧
      encoder.presence? ["a", "x", "b"] = some counts ∧
      encoder.presence? ["x", "a"] = some counts ∧ counts[2]? = some 1 ∧ counts.sum = 1 ∧
      (∀ count ∈ counts, count ≤ 1) ∧
      (Rows.columnSums32 encoder.width (encoder.encode ["a", "x", "b"])).map Int32.toInt =
        counts.map Int.ofNat ∧
      encoder.matrices? [["b"], ["a", "x", "b"]] = some tensor ∧
      ∀ position, tensor.get? (1 :: position) = matrix.get? position := by
  intro encoder
  have hfits : encoder.fits = true := by decide
  have hstack : Shape.fits [2, encoder.height, encoder.width] = true := by decide
  have hperm : (["x", "a"] : List String).Perm ["a", "x"] := List.Perm.swap _ _ _
  obtain ⟨hmatrix, hmatrices, -, -⟩ := encodes_one_hot encoder
  obtain ⟨matrix, counts, hsome, honeHot, hcounts, hpresence⟩ := hmatrix ["a", "x", "b"] hfits
  obtain ⟨tensor, htensor, hslices⟩ := hmatrices [["b"], ["a", "x", "b"]] hstack
  obtain ⟨slice, hslice, hentries⟩ := hslices.slice 1 ["a", "x", "b"] rfl
  obtain rfl : matrix = slice := Option.some.inj (hsome.symm.trans hslice)
  exact ⟨hfits, hstack, hperm, matrix, counts, tensor, hsome, honeHot.entry 0 2,
    honeHot.entry 0 0, hcounts, hpresence.perm _ hperm, hpresence.count 2 (by decide),
    hpresence.total, hpresence.le_one (by decide), hpresence.words (by decide), htensor, hentries⟩

/-- There is no memory for the matrix of an encoder that is read with 2^63 rows, although it has no
column and no entry, nor for a stack of no such matrices. -/
theorem not_encodes_without_memory :
    ∃ encoder,
      Encoder.ofValue false (.object
        [("name", .string "types"), ("units", .ofNat 8), ("tile", .ofNat 1),
         ("max_num", .ofNat 9223372036854775808)]) = .ok encoder ∧
      encoder.height = 9223372036854775808 ∧ encoder.width = 0 ∧
      encoder.matrix? [] = none ∧ encoder.presence? [] = none ∧ encoder.matrices? [] = none :=
  ⟨⟨.types, 8, 1, 9223372036854775808, none⟩, by cbv, rfl, rfl, by decide, by decide, by decide⟩

end Encoder

end EvidenceSynthesis
