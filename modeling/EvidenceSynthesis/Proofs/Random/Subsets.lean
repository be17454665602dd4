import EvidenceSynthesis.Dataset.Extraction
import Mathlib

/-!
# Random subsets

A source of subsets is lawful if it gives what it is asked for (`SubsetSource.IsLawful`): a size is
at most the bound, and a choice takes as many items of a list of different ones as were asked for,
each of them at most once.

Subsets that are chosen with random words are of this kind (`Extraction.isLawful_randomSubsets`),
whatever the words are.  A number below a bound is the quotient of a product by the number of all
words, so that it stays below the bound (`Random.Stream.below64_lt`).  And the selection that passes
over a list loses an item whenever it takes one, so that it is at all times a part of the items that
were offered (`Random.subperm_offer`).
-/

namespace EvidenceSynthesis

/-- A source of subsets gives sizes up to the bound, and of different items as many as are asked
for, none of them twice. -/
structure SubsetSource.IsLawful {ρ : Type} (source : SubsetSource ρ) : Prop where
  size_le : ∀ bound state, (source.size bound state).1 ≤ bound
  choose_subperm : ∀ size items state, size ≤ items.length → items.Nodup →
    (source.choose size items state).1.Subperm items
  length_choose : ∀ size items state, size ≤ items.length → items.Nodup →
    (source.choose size items state).1.length = size

namespace Random

/-! ### Numbers below a bound -/

theorem scaleWord?_lt {bits bound word n : Nat} (hbound : 0 < bound) (hword : word < 2 ^ bits)
    (h : scaleWord? bits bound word = some n) : n < bound := by
  simp only [scaleWord?, Nat.pow_eq] at h
  split at h
  · cases h
    rw [Nat.div_lt_iff_lt_mul (Nat.two_pow_pos bits), Nat.mul_comm bound]
    exact Nat.mul_lt_mul_of_pos_right hword hbound
  · cases h

theorem firstBelow_lt {bits bound : Nat} (hbound : 0 < bound) {next : Stream → Nat × Stream}
    (hnext : ∀ stream, (next stream).1 < 2 ^ bits) (tries : Nat) (stream : Stream) :
    (firstBelow bits bound next tries stream).1 < bound := by
  induction tries generalizing stream with
  | zero => exact hbound
  | succ tries ih =>
    have hword := hnext stream
    rw [firstBelow]
    generalize next stream = result at hword ⊢
    obtain ⟨word, rest⟩ := result
    cases hn : scaleWord? bits bound word with
    | none => simpa only [hn] using ih rest
    | some n => simpa only [hn] using scaleWord?_lt hbound hword hn

theorem Stream.below64_lt {bound : Nat} (hbound : 0 < bound) (stream : Stream) :
    (stream.below64 bound).1 < bound :=
  firstBelow_lt hbound (fun stream => UInt64.toNat_lt stream.word64.1) maxTries stream

/-! ### Selections -/

section

variable {α : Type}

/-- An item that takes a place of a selection puts out the one that was there. -/
theorem subperm_set (selection : List α) (place : Nat) (item : α) :
    (selection.set place item).Subperm (item :: selection) := by
  by_cases hplace : place < selection.length
  · have hperm := List.set_perm_cons_eraseIdx hplace item
    have hpart := (List.eraseIdx_sublist selection place).subperm
    exact hperm.subperm.trans ((List.subperm_cons item).2 hpart)
  · rw [List.set_eq_of_length_le (Nat.le_of_not_lt hplace)]
    exact (List.sublist_cons_self item selection).subperm

/-- A selection is a part of what it was and of what was offered to it. -/
theorem subperm_offer (seen : Nat) (selection items : List α) (stream : Stream) :
    (offer seen selection items stream).1.Subperm (selection ++ items) := by
  induction items generalizing seen selection stream with
  | nil =>
    rw [List.append_nil]
    exact List.Subperm.refl selection
  | cons item rest ih =>
    rw [offer]
    rcases stream.below32 (seen + 1) with ⟨place, next⟩
    have hrest := ih (seen + 1) (selection.set place item) next
    have hset := (List.subperm_append_right rest).2 (subperm_set selection place item)
    have hmoved : (item :: selection ++ rest).Perm (selection ++ item :: rest) :=
      List.perm_middle.symm
    exact hrest.trans (hset.trans hmoved.subperm)

/-- Offering items leaves the size of the selection. -/
theorem length_offer (seen : Nat) (selection items : List α) (stream : Stream) :
    (offer seen selection items stream).1.length = selection.length := by
  induction items generalizing seen selection stream with
  | nil => rfl
  | cons item rest ih =>
    rw [offer]
    rcases stream.below32 (seen + 1) with ⟨place, next⟩
    exact (ih _ _ _).trans List.length_set

/-- A sample consists of items, each taken once at most. -/
theorem Stream.subperm_sample (size : Nat) (items : List α) (stream : Stream) :
    (stream.sample size items).1.Subperm items := by
  have h := subperm_offer (items.take size).length (items.take size) (items.drop size) stream
  rw [List.take_append_drop] at h
  exact h

/-- A sample has the size that was asked for. -/
theorem Stream.length_sample {size : Nat} {items : List α} (hsize : size ≤ items.length)
    (stream : Stream) : (stream.sample size items).1.length = size :=
  (length_offer _ _ _ stream).trans (List.length_take_of_le hsize)

end

end Random

/-- What is chosen with random words is what was asked for. -/
theorem Extraction.isLawful_randomSubsets : randomSubsets.IsLawful where
  size_le bound stream := Nat.le_of_lt_succ (stream.below64_lt (Nat.succ_pos bound))
  choose_subperm size items stream _ _ := stream.subperm_sample size items
  length_choose _ _ stream hsize _ := stream.length_sample hsize

end EvidenceSynthesis
