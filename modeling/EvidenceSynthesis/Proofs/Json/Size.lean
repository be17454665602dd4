import EvidenceSynthesis.Proofs.Json.RoundTrip
import EvidenceSynthesis.Proofs.Text.Utf8

/-!
# How long written values are

The size that is computed for a value is the number of octets of its text
(`Value.length_encode_pretty`), so that a text need not be laid out to know that it is too long.

How much a layout adds is seen from arrays of equal items, which hold arrays of equal items in
turn: `Value.spread`.  Their texts without a blank are read back, and the size of their texts in
any style is a recurrence over the numbers of items (`Value.writtenSize_spread`).
-/

namespace EvidenceSynthesis.Json

open Text.Utf8 (size size_nil size_cons size_append)

/-! ### Sizes of what is written -/

theorem Style.size_lineBreak (style : Style) (level : Nat) :
    size (style.lineBreak level) = style.breakSize level := by
  have hspaces : ∀ n, size (List.replicate n ' ') = n := by
    intro n
    induction n with
    | zero => rfl
    | succ n ih =>
      rw [List.replicate_succ, size_cons, ih]
      exact Nat.add_comm 1 n
  cases style with
  | compact => rfl
  | lines indent =>
    rw [lineBreak, size_cons, hspaces]
    exact Nat.add_comm 1 (indent * level)

theorem Style.size_gap (style : Style) : size style.gap = style.gap.length := by
  cases style <;> rfl

namespace Value

theorem breakSize_prettyStyle (level : Nat) : prettyStyle.breakSize level = 2 * level + 1 := rfl

theorem length_gap_prettyStyle : prettyStyle.gap.length = 1 := rfl

theorem writtenItemsSize_cons_cons (style : Style) (level : Nat) (item other : Value)
    (others : List Value) :
    writtenItemsSize style level (item :: other :: others) =
      style.breakSize level + writtenSize style level item + 1 +
        writtenItemsSize style level (other :: others) := by
  rw [writtenItemsSize.eq_def]

theorem writtenMembersSize_cons_cons (style : Style) (level : Nat) (name : String)
    (value : Value) (other : String × Value) (others : Members) :
    writtenMembersSize style level ((name, value) :: other :: others) =
      style.breakSize level + size (writtenString name) + 1 + style.gap.length +
        writtenSize style level value + 1 + writtenMembersSize style level (other :: others) := by
  rw [writtenMembersSize.eq_def]

theorem writtenSize_array_cons (style : Style) (level : Nat) (item : Value)
    (others : List Value) :
    writtenSize style level (array (item :: others)) =
      2 + writtenItemsSize style (level + 1) (item :: others) + style.breakSize level := by
  rw [writtenSize.eq_def]

theorem writtenSize_object_cons (style : Style) (level : Nat) (member : String × Value)
    (others : Members) :
    writtenSize style level (object (member :: others)) =
      2 + writtenMembersSize style (level + 1) (member :: others) + style.breakSize level := by
  rw [writtenSize.eq_def]

/-- A character of one octet. -/
theorem size_cons_of_ascii {c : Char} (h : c.utf8Size = 1) (chars : List Char) :
    size (c :: chars) = 1 + size chars := by
  rw [size_cons, h]

mutual

/-- The text of a value has as many octets as its size says. -/
theorem size_written (style : Style) (level : Nat) : ∀ (value : Value) (rest : List Char),
    size (value.written style level rest) = value.writtenSize style level + size rest
  | .null, rest => size_append _ rest
  | .bool b, rest => size_append _ rest
  | .integer n, rest => size_append _ rest
  | .float x, rest => size_append _ rest
  | .string s, rest => size_append _ rest
  | .array [], rest => by
    rw [written, size_cons_of_ascii rfl, size_cons_of_ascii rfl, writtenSize]
    omega
  | .array (item :: others), rest => by
    rw [written.eq_def, writtenSize_array_cons]
    simp only
    rw [size_cons_of_ascii rfl, size_writtenItems, size_append, style.size_lineBreak,
      size_cons_of_ascii rfl]
    omega
  | .object [], rest => by
    rw [written, size_cons_of_ascii rfl, size_cons_of_ascii rfl, writtenSize]
    omega
  | .object (member :: others), rest => by
    rw [written.eq_def, writtenSize_object_cons]
    simp only
    rw [size_cons_of_ascii rfl, size_writtenMembers, size_append, style.size_lineBreak,
      size_cons_of_ascii rfl]
    omega

/-- Items are written with the octets that their size counts. -/
theorem size_writtenItems (style : Style) (level : Nat) :
    ∀ (items : List Value) (rest : List Char),
      size (writtenItems style level items rest) =
        writtenItemsSize style level items + size rest
  | [], rest => by
    rw [writtenItems, writtenItemsSize, Nat.zero_add]
  | [item], rest => by
    rw [writtenItems, writtenItemsSize, size_append, style.size_lineBreak, size_written]
    omega
  | item :: other :: others, rest => by
    rw [writtenItems_cons_cons, writtenItemsSize_cons_cons, size_append, style.size_lineBreak,
      size_written, size_cons_of_ascii rfl, size_writtenItems]
    omega

theorem size_writtenMembers (style : Style) (level : Nat) :
    ∀ (members : Members) (rest : List Char),
      size (writtenMembers style level members rest) =
        writtenMembersSize style level members + size rest
  | [], rest => by
    rw [writtenMembers, writtenMembersSize, Nat.zero_add]
  | [(name, value)], rest => by
    rw [writtenMembers, writtenMembersSize, size_append, style.size_lineBreak, size_append,
      size_cons_of_ascii rfl, size_append, style.size_gap, size_written]
    omega
  | (name, value) :: other :: others, rest => by
    rw [writtenMembers_cons_cons, writtenMembersSize_cons_cons, size_append,
      style.size_lineBreak, size_append, size_cons_of_ascii rfl, size_append, style.size_gap,
      size_written, size_cons_of_ascii rfl, size_writtenMembers]
    omega

end

/-- The size of a written value is the number of its octets. -/
theorem length_encode_written (style : Style) (value : Value) :
    (Text.Utf8.encode (String.ofList (value.written style 0 []))).length =
      value.writtenSize style 0 := by
  rw [Text.Utf8.length_encode, String.toList_ofList, size_written, size_nil, Nat.add_zero]

/-- The size of a value is the number of octets of its text. -/
theorem length_encode_pretty (value : Value) :
    (Text.Utf8.encode value.pretty).length = value.prettySize :=
  length_encode_written prettyStyle value

/-! ### Arrays of equal items -/

/-- Arrays of equal items within each other: so many of them in each, and a zero in the
innermost. -/
def spread : List Nat → Value
  | [] => integer 0
  | n :: counts => array (List.replicate n (spread counts))

/-- The number of octets of such arrays. -/
def spreadSize (style : Style) (level : Nat) : List Nat → Nat
  | [] => 1
  | 0 :: _ => 2
  | (n + 1) :: counts =>
    2 + ((n + 1) * (style.breakSize (level + 1) + spreadSize style (level + 1) counts) + n) +
      style.breakSize level

/-- The size of equal items, with the commas between them. -/
theorem writtenItemsSize_replicate (style : Style) (level n : Nat) (item : Value) :
    writtenItemsSize style level (List.replicate (n + 1) item) =
      (n + 1) * (style.breakSize level + writtenSize style level item) + n := by
  induction n with
  | zero =>
    rw [List.replicate_one, writtenItemsSize]
    omega
  | succ n ih =>
    rw [List.replicate_succ, List.replicate_succ, writtenItemsSize_cons_cons,
      ← List.replicate_succ, ih, Nat.succ_mul (n + 1)]
    omega

/-- The size of arrays of equal items. -/
theorem writtenSize_spread (style : Style) (level : Nat) (counts : List Nat) :
    (spread counts).writtenSize style level = spreadSize style level counts := by
  induction counts generalizing level with
  | nil => rfl
  | cons n counts ih =>
    cases n with
    | zero => rw [spread, List.replicate_zero, writtenSize, spreadSize]
    | succ n =>
      have hitems := writtenItemsSize_replicate style (level + 1) n (spread counts)
      rw [ih] at hitems
      rw [spread, List.replicate_succ, writtenSize_array_cons, ← List.replicate_succ, hitems,
        spreadSize]

theorem hasDistinctNames_spread (counts : List Nat) : (spread counts).HasDistinctNames := by
  induction counts with
  | nil => trivial
  | cons n counts ih =>
    refine itemsHaveDistinctNames_iff.2 fun item hitem => ?_
    rw [List.eq_of_mem_replicate hitem]
    exact ih

/-- The only number of such arrays is read back. -/
theorem readsBack_spread (counts : List Nat) : (spread counts).EveryNumber ReadsBack := by
  induction counts with
  | nil => exact readsBack_integer (by decide)
  | cons n counts ih =>
    refine everyNumberOfItems_iff.2 fun item hitem => ?_
    rw [List.eq_of_mem_replicate hitem]
    exact ih

/-- Arrays of equal items nest as deep as there are numbers of items. -/
theorem nesting_spread_le (counts : List Nat) : (spread counts).nesting ≤ counts.length := by
  induction counts with
  | nil => exact Nat.le_refl 0
  | cons n counts ih =>
    refine nesting_array_le_iff.2 fun item hitem => ?_
    rw [List.eq_of_mem_replicate hitem]
    exact ih

/-- They nest no less if none is empty. -/
theorem nesting_spread {counts : List Nat} (h : ∀ n ∈ counts, 0 < n) :
    (spread counts).nesting = counts.length := by
  induction counts with
  | nil => rfl
  | cons n counts ih =>
    obtain ⟨hn, hcounts⟩ := List.forall_mem_cons.1 h
    have hmem : spread counts ∈ List.replicate n (spread counts) :=
      List.mem_replicate.2 ⟨Nat.ne_of_gt hn, rfl⟩
    have hle := nestingOfItems_le_iff.1 (Nat.le_refl _) _ hmem
    refine Nat.le_antisymm (nesting_spread_le _) ?_
    rw [ih hcounts] at hle
    exact Nat.add_le_add_right hle 1

end Value

end EvidenceSynthesis.Json
