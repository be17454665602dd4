import EvidenceSynthesis.Word

/-!
# Tensors

A tensor is an array with any number of axes.  Its entries are numbers of 32 bits and lie
in one piece of memory, row by row.  Memory has less than `2 ^ 63` octets, so that not
every combination of lengths can be had.
-/

namespace EvidenceSynthesis

/-- The lengths of the axes of a tensor. -/
abbrev Shape := List Nat

namespace Shape

/-- The number of entries. -/
def volume : Shape → Nat
  | [] => 1
  | length :: rest => length * volume rest

/-- The number of entries if the axes without any place are left out. -/
def extent (shape : Shape) : Nat :=
  volume (shape.filter (0 < ·))

/-- The number of octets that an entry takes. -/
def entrySize : Nat := 4

/-- Whether there is memory for tensors of the shape: all positions along the axes have to
be told apart, even if there is no entry at them. -/
def fits (shape : Shape) : Bool :=
  shape.extent < Word.bound63 && entrySize * shape.volume < Word.bound63

/-- A tensor whose axes all have places has entries. -/
theorem volume_pos {shape : Shape} (h : ∀ length ∈ shape, 0 < length) : 0 < shape.volume := by
  induction shape with
  | nil => exact Nat.one_pos
  | cons length rest ih =>
    exact Nat.mul_pos (h _ (by simp)) (ih fun n hn => h n (List.mem_cons_of_mem _ hn))

end Shape

/-- An array of numbers, the last axis running fastest. -/
structure Tensor where
  shape : Shape
  entries : List Nat
  deriving Repr, DecidableEq

end EvidenceSynthesis
