import EvidenceSynthesis.Decimal.Binary64
import EvidenceSynthesis.Random.Stream

/-!
# Random choices

Numbers below a bound, positions with given weights, and subsets, made of the words of
a stream.
-/

namespace EvidenceSynthesis.Random

open Decimal (Binary64 Ratio)

/-! ### Numbers below a bound -/

/-- The number below `bound` that a word of `bits` bits stands for; none if the word
lies in the part of the range that would favour some numbers. -/
def scaleWord? (bits bound word : Nat) : Option Nat :=
  let zone := bound * Nat.pow 2 (bits - 1 - bound.log2) - 1
  let product := word * bound
  let words := Nat.pow 2 bits
  if product % words ≤ zone then some (product / words) else none

/-- How many words are tried for one number; each of them fails with a chance of at most
one half. -/
def maxTries : Nat := 4096

/-- The first number that one of the next words stands for. -/
def firstBelow (bits bound : Nat) (next : Stream → Nat × Stream) : Nat → Stream → Nat × Stream
  | 0, stream => (0, stream)
  | tries + 1, stream =>
    let (word, stream) := next stream
    match scaleWord? bits bound word with
    | some n => (n, stream)
    | none => firstBelow bits bound next tries stream

namespace Stream

/-- A number below a bound, made of single words. -/
def below32 (bound : Nat) (stream : Stream) : Nat × Stream :=
  firstBelow 32 bound (fun s => s.word32.map UInt32.toNat id) maxTries stream

/-- A number below a bound, made of pairs of words. -/
def below64 (bound : Nat) (stream : Stream) : Nat × Stream :=
  firstBelow 64 bound (fun s => s.word64.map UInt64.toNat id) maxTries stream

end Stream

/-! ### Positions with weights -/

/-- The sum of a sum and a weight, rounded; none if it is beyond the format. -/
def plus? (sum : Option Binary64) (weight : Binary64) : Option Binary64 :=
  sum.bind fun sum => sum.add? weight

/-- The sums of the first one, two, … weights, each of them rounded, without the sum of all. -/
def innerSums (sum : Option Binary64) : List Binary64 → List (Option Binary64)
  | [] => []
  | [_] => []
  | weight :: rest => plus? sum weight :: innerSums (plus? sum weight) rest

/-- The sum of weights, rounded after each of them. -/
def total? (weights : List Binary64) : Option Binary64 :=
  weights.foldl plus? (some (.zero false))

/-- The position that a point of the unit interval falls on, where the point is given in
steps of `2 ^ -52` and its product with the sum of the weights is rounded.  No weight is
negative. -/
def positionOf (weights : List Binary64) (steps : Nat) : Nat :=
  let point := (total? weights).bind fun total =>
    Binary64.ofRatio? false
      ⟨steps * total.magnitude.num, Decimal.hiddenBit * total.magnitude.den⟩
  (innerSums (some (.zero false)) weights).countP fun sum =>
    sum.any fun sum => point.any fun point => (Ratio.compare sum.magnitude point.magnitude).isLE

/-- A position of a list of weights. -/
def Stream.position (weights : List Binary64) (stream : Stream) : Nat × Stream :=
  let (word, stream) := stream.word64
  (positionOf weights (word >>> 12).toNat, stream)

/-- There is one sum less than there are weights. -/
theorem length_innerSums (sum : Option Binary64) (weights : List Binary64) :
    (innerSums sum weights).length = weights.length - 1 := by
  induction weights generalizing sum with
  | nil => rfl
  | cons weight rest ih =>
    cases rest with
    | nil => rfl
    | cons next others => simp [innerSums, ih]

/-- A point falls on one of the positions. -/
theorem positionOf_lt {weights : List Binary64} (h : weights ≠ []) (steps : Nat) :
    positionOf weights steps < weights.length := by
  have hpos : 0 < weights.length := List.length_pos_iff.2 h
  refine Nat.lt_of_le_of_lt List.countP_le_length ?_
  rw [length_innerSums]
  omega

/-! ### Subsets -/

/-- Offers the items that follow the `seen` first ones to a selection: each takes the
place of a random one among as many as were offered, if that place is in the
selection. -/
def offer {α : Type} (seen : Nat) (selection : List α) :
    List α → Stream → List α × Stream
  | [], stream => (selection, stream)
  | item :: rest, stream =>
    let (place, stream) := stream.below32 (seen + 1)
    offer (seen + 1) (selection.set place item) rest stream

/-- A selection of `size` items. -/
def Stream.sample {α : Type} (size : Nat) (items : List α) (stream : Stream) :
    List α × Stream :=
  let first := items.take size
  offer first.length first (items.drop size) stream

end EvidenceSynthesis.Random
