import EvidenceSynthesis.Proofs.Model.CommonTokens
import Mathlib

/-!
# Matrices that are filled place by place

The matrix of tokens is defined by its rows.  It can as well be filled: starting from zeros, a one
is written into the column of each token that has one, row after row.  Writing outside of the matrix
would break the work off (`Rows.mark?`); it never happens, since the column of a token lies within
the width and no more tokens are taken than there are rows, and what is filled in the end is the
matrix of the tokens (`Encoder.filled?_eq`).

The sums of its columns are the presence of the tokens: the rows of zeros that follow those of the
tokens add nothing (`Encoder.columnSums_encode`).
-/

namespace EvidenceSynthesis

namespace Rows

/-- Writes a one at a place of a matrix; none if there is no such place. -/
def mark? (rows : Rows) (row column : Nat) : Option Rows :=
  match rows[row]? with
  | some entries =>
    if column < entries.length then some (rows.set row (entries.set column 1)) else none
  | none => none

/-- Writing behind the first rows leaves them as they are. -/
theorem mark?_append {first : Rows} {entries : List Nat} {rest : Rows} {column : Nat}
    (h : column < entries.length) :
    (first ++ entries :: rest).mark? first.length column =
      some (first ++ entries.set column 1 :: rest) := by
  have hrow : (first ++ entries :: rest)[first.length]? = some entries := by simp
  simp only [mark?, hrow, if_pos h, List.set_append_right _ _ (Nat.le_refl _), Nat.sub_self,
    List.set_cons_zero]

/-- Rows of zeros add nothing to the sums of the columns. -/
theorem columnSums_append_zeros (width n : Nat) {rows : Rows}
    (h : ∀ row ∈ rows, row.length = width) :
    columnSums width (rows ++ List.replicate n (List.replicate width 0)) =
      columnSums width rows := by
  have hzeros : ∀ sums : List Nat, sums.length = width →
      List.zipWith (· + ·) sums (List.replicate width 0) = sums := by
    intro sums hsums
    refine List.ext_getElem (by simp [hsums]) fun place hplace hsum => ?_
    simp
  have hlength : (columnSums width rows).length = width := length_columnSums h
  unfold columnSums at hlength ⊢
  rw [List.foldl_append]
  induction n with
  | zero => rfl
  | succ n ih => rw [List.replicate_succ, List.foldl_cons, hzeros _ hlength, ih]

end Rows

namespace Encoder

variable {encoder : Encoder} {token : String}

/-- Writes a one into the column of a token, if the token has a column. -/
def markToken? (encoder : Encoder) (rows : Rows) (row : Nat) (token : String) : Option Rows :=
  match encoder.column? token with
  | some column => rows.mark? row column
  | none => some rows

/-- Writes tokens into the rows from `row` on. -/
def fill? (encoder : Encoder) : List String → Nat → Rows → Option Rows
  | [], _, rows => some rows
  | token :: rest, row, rows =>
    (encoder.markToken? rows row token).bind (encoder.fill? rest (row + 1))

/-- The matrix of tokens, filled place by place. -/
def filled? (encoder : Encoder) (tokens : List String) : Option Rows :=
  encoder.fill? (tokens.take encoder.height) 0
    (List.replicate encoder.height (List.replicate encoder.width 0))

/-- The row of a token with a column is a row of zeros into which a one is written. -/
theorem row_of_column? {column : Nat} (h : encoder.column? token = some column) :
    encoder.row token = (List.replicate encoder.width 0).set column 1 := by
  refine List.ext_getElem (by simp) fun place hplace _ => ?_
  simp only [row, h, List.getElem_map, List.getElem_range, List.getElem_set, Option.some.injEq,
    List.getElem_replicate]

/-- The row of a token without a column is a row of zeros. -/
theorem row_of_column?_eq_none (h : encoder.column? token = none) :
    encoder.row token = List.replicate encoder.width 0 := by
  refine List.ext_getElem (by simp) fun place hplace _ => ?_
  simp only [row, h, List.getElem_map, reduceCtorEq, if_false, List.getElem_replicate]

/-- Writing a token behind rows that are written makes its row of a row of zeros. -/
theorem markToken?_append (encoder : Encoder) (first rest : Rows) (token : String) :
    encoder.markToken? (first ++ List.replicate encoder.width 0 :: rest) first.length token =
      some (first ++ encoder.row token :: rest) := by
  cases hcolumn : encoder.column? token with
  | none => simp only [markToken?, hcolumn, row_of_column?_eq_none hcolumn]
  | some column =>
    have hlt : column < (List.replicate encoder.width 0).length := by
      rw [List.length_replicate]
      exact column?_lt hcolumn
    simp only [markToken?, hcolumn, row_of_column? hcolumn, Rows.mark?_append hlt]

/-- Tokens are written behind rows that are written, one after another, as long as there are rows of
zeros. -/
theorem fill?_append (encoder : Encoder) {tokens : List String} {n : Nat} (h : tokens.length ≤ n)
    (first : Rows) :
    encoder.fill? tokens first.length
        (first ++ List.replicate n (List.replicate encoder.width 0)) =
      some (first ++ tokens.map encoder.row ++
        List.replicate (n - tokens.length) (List.replicate encoder.width 0)) := by
  induction tokens generalizing first n with
  | nil => simp [fill?]
  | cons token rest ih =>
    obtain ⟨m, rfl⟩ : ∃ m, n = m + 1 := ⟨n - 1, by simp at h; omega⟩
    have hrest : rest.length ≤ m := by simpa using h
    have hnext := ih hrest (first ++ [encoder.row token])
    rw [List.length_append, List.length_singleton] at hnext
    rw [fill?, List.replicate_succ, markToken?_append, Option.bind_some,
      List.append_cons first, hnext]
    simp

/-- Every place that is written lies in the matrix, and what is filled is the matrix of the
tokens. -/
theorem filled?_eq (encoder : Encoder) (tokens : List String) :
    encoder.filled? tokens = some (encoder.encode tokens) := by
  have hlength : (tokens.take encoder.height).length ≤ encoder.height := List.length_take_le _ _
  have hfill := encoder.fill?_append hlength []
  simpa [filled?, encode, rows] using hfill

/-- The presence of tokens is the sum of the columns of their matrix. -/
theorem columnSums_encode (encoder : Encoder) (tokens : List String) :
    Rows.columnSums encoder.width (encoder.encode tokens) = encoder.presence tokens := by
  have hrows : ∀ row ∈ encoder.rows tokens, row.length = encoder.width :=
    fun _ => length_of_mem_rows
  rw [presence, encode, Rows.columnSums_append_zeros _ _ hrows]

end Encoder

end EvidenceSynthesis
