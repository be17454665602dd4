import Mathlib

/-!
# Pieces of texts

A text is cut in two at the first character that a test refuses, and it is split at every separator.
In both cases the parts are told by what stands at their ends: `cut_iff` says which two parts a text
is cut into, and `mem_splitOn_iff` which pieces a text is split into.
-/

namespace EvidenceSynthesis.Text

variable {α : Type}

/-- A text is cut into a part that passes a test and a part that does not begin with what passes. -/
theorem cut_iff {p : α → Bool} {text word rest : List α} :
    text.takeWhile p = word ∧ text.dropWhile p = rest ↔
      text = word ++ rest ∧ (∀ c ∈ word, p c = true) ∧ ∀ c ∈ rest.head?, p c = false := by
  constructor
  · rintro ⟨rfl, rfl⟩
    refine ⟨List.takeWhile_append_dropWhile.symm, fun c hc => List.mem_takeWhile_imp hc, ?_⟩
    intro c hc
    have hhead := List.head?_dropWhile_not p text
    rw [Option.mem_def.1 hc] at hhead
    exact hhead
  · rintro ⟨rfl, hword, hrest⟩
    rw [List.takeWhile_append_of_pos hword, List.dropWhile_append_of_pos hword]
    cases rest with
    | nil => simp
    | cons c rest =>
      have hc : ¬ p c = true := by simp [hrest c rfl]
      rw [List.takeWhile_cons_of_neg hc, List.dropWhile_cons_of_neg hc, List.append_nil]
      exact ⟨rfl, rfl⟩

/-- What is in a joined text is in one of its pieces or between two of them. -/
theorem mem_of_mem_intercalate {sep c : α} {pieces : List (List α)}
    (h : c ∈ [sep].intercalate pieces) : c = sep ∨ ∃ piece ∈ pieces, c ∈ piece := by
  induction pieces with
  | nil => cases h
  | cons piece pieces ih =>
    cases pieces with
    | nil => exact Or.inr ⟨piece, by simp, by simpa using h⟩
    | cons other pieces =>
      rw [List.intercalate_cons_cons, List.mem_append, List.mem_append, List.mem_singleton] at h
      rcases h with (hpiece | rfl) | hothers
      · exact Or.inr ⟨piece, List.mem_cons_self, hpiece⟩
      · exact Or.inl rfl
      · obtain rfl | ⟨found, hfound, hc⟩ := ih hothers
        · exact Or.inl rfl
        · exact Or.inr ⟨found, List.mem_cons_of_mem _ hfound, hc⟩

variable [BEq α] [LawfulBEq α] {sep : α}

/-- A text is cut at the first separator. -/
theorem cut_at_iff {text word rest : List α} :
    text.takeWhile (· != sep) = word ∧ text.dropWhile (· != sep) = rest ↔
      text = word ++ rest ∧ sep ∉ word ∧ ∀ c ∈ rest.head?, c = sep := by
  rw [cut_iff]
  have hword : (∀ c ∈ word, (c != sep) = true) ↔ sep ∉ word := by
    refine ⟨fun h hmem => by simpa using h sep hmem, fun h c hc => bne_iff_ne.2 ?_⟩
    rintro rfl
    exact h hc
  have hrest : (∀ c ∈ rest.head?, (c != sep) = false) ↔ ∀ c ∈ rest.head?, c = sep := by
    simp only [bne_eq_false_iff_eq]
  rw [hword, hrest]

/-- Behind the last separator there is none. -/
theorem exists_last_piece (sep : α) (text : List α) :
    ∃ before last, text = before ++ last ∧ sep ∉ last ∧ ∀ c ∈ before.getLast?, c = sep := by
  by_cases hsep : sep ∈ text
  · obtain ⟨behind, front, htext, hbehind⟩ :=
      List.eq_append_cons_of_mem (List.mem_reverse.2 hsep)
    refine ⟨front.reverse ++ [sep], behind.reverse, ?_, by simpa using hbehind, by simp⟩
    rw [← List.reverse_reverse text, htext]
    simp
  · exact ⟨[], text, rfl, hsep, by simp⟩

/-- The pieces between separators are the texts without a separator that are enclosed by separators
or by the ends of the text. -/
theorem mem_splitOn_iff {text piece : List α} :
    piece ∈ text.splitOn sep ↔
      sep ∉ piece ∧ ∃ before after, text = before ++ piece ++ after ∧
        (∀ c ∈ before.getLast?, c = sep) ∧ ∀ c ∈ after.head?, c = sep := by
  constructor
  · intro h
    induction hlength : text.length using Nat.strong_induction_on generalizing text with
    | _ n ih =>
      by_cases hsep : sep ∈ text
      · obtain ⟨first, others, rfl, hfirst⟩ := List.eq_append_cons_of_mem hsep
        rw [List.splitOn_append_cons_self, List.splitOn_eq_singleton hfirst,
          List.singleton_append, List.mem_cons] at h
        rcases h with rfl | h
        · exact ⟨hfirst, [], sep :: others, by simp, by simp, by simp⟩
        · rw [List.length_append, List.length_cons] at hlength
          obtain ⟨hplain, before, after, rfl, hbefore, hafter⟩ :=
            ih others.length (by omega) h rfl
          refine ⟨hplain, first ++ sep :: before, after, by simp, ?_, hafter⟩
          intro c hc
          rw [List.getLast?_append, List.getLast?_cons, Option.some_or, Option.mem_some_iff] at hc
          cases hlast : before.getLast? with
          | none => rw [← hc, hlast, Option.getD_none]
          | some last => rw [← hc, hlast, Option.getD_some, hbefore last hlast]
      · rw [List.splitOn_eq_singleton hsep, List.mem_singleton] at h
        subst h
        exact ⟨hsep, [], [], by simp, by simp, by simp⟩
  · rintro ⟨hplain, before, after, rfl, hbefore, hafter⟩
    have hmem : piece ∈ (piece ++ after).splitOn sep := by
      rcases after with _ | ⟨c, after⟩
      · rw [List.append_nil, List.splitOn_eq_singleton hplain]
        exact List.mem_singleton_self piece
      · obtain rfl := hafter c rfl
        rw [List.splitOn_append_cons_self, List.splitOn_eq_singleton hplain]
        exact List.mem_cons_self
    rw [List.append_assoc]
    rcases List.eq_nil_or_concat before with rfl | ⟨front, c, rfl⟩
    · exact hmem
    · obtain rfl := hbefore c (by simp)
      rw [List.concat_append, List.splitOn_append_cons_self]
      exact List.mem_append_right _ hmem

end EvidenceSynthesis.Text
