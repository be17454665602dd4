import EvidenceSynthesis.Proofs.Model.StoredConfig
import Mathlib

/-!
# Vocabularies as numberings

A vocabulary lists tokens and looks up their numbers.  Where a token is listed at several places,
its number is the last one of them (`Vocabulary.index?_eq_some_iff`), and no token has the number of
an earlier place.

Listing and look-up are therefore the inverse of each other exactly if no token is listed twice, and
so is everything that is expected of a numbering: that there are as many tokens as places, that each
place is the number of a token, and that as many numbers are stored as there are places
(`Vocabulary.tfae_nodup`).  Reading a vocabulary compares its number of places with the number of
places of the list itself and does not notice a token that is listed twice: every list is accepted
that a word can count (`Vocabulary.isRead_iff`).
-/

namespace EvidenceSynthesis

open Json (Value Members)

namespace Vocabulary

variable {vocabulary : Vocabulary} {token : String} {place : Nat}

/-! ### Places and numbers -/

/-- No place of a token is behind the last one. -/
theorem le_of_lastPlace? {tokens : List String} {start last : Nat}
    (h : lastPlace? token start tokens = some last) (hplace : tokens[place]? = some token) :
    start + place ≤ last := by
  induction tokens generalizing start place with
  | nil => simp at hplace
  | cons other rest ih =>
    rw [lastPlace?, Option.or_eq_some_iff] at h
    rcases h with hbehind | ⟨hnone, hfirst⟩
    · cases place with
      | zero =>
        have hle := (lastPlace?_eq_some hbehind).1
        omega
      | succ place =>
        have hle := ih hbehind (by simpa using hplace)
        omega
    · -- the token does not occur behind its first place
      have habsent : token ∉ rest := lastPlace?_eq_none_iff.1 hnone
      cases place with
      | zero =>
        split at hfirst
        · cases hfirst
          exact Nat.le_refl _
        · cases hfirst
      | succ place =>
        have hmem : token ∈ rest := List.mem_of_getElem? (by simpa using hplace)
        exact absurd hmem habsent

/-- The number of a token is the last of its places. -/
theorem index?_eq_some_iff :
    vocabulary.index? token = some place ↔
      vocabulary.tokens[place]? = some token ∧
        ∀ other, vocabulary.tokens[other]? = some token → other ≤ place := by
  constructor
  · intro h
    refine ⟨getElem?_of_index? h, fun other hother => ?_⟩
    have hle := le_of_lastPlace? h hother
    omega
  · rintro ⟨hplace, hlast⟩
    have hsome : (vocabulary.index? token).isSome = true :=
      isSome_index?_iff.2 (List.mem_of_getElem? hplace)
    obtain ⟨last, hnumber⟩ := Option.isSome_iff_exists.1 hsome
    have hle := hlast last (getElem?_of_index? hnumber)
    have hge := le_of_lastPlace? hnumber hplace
    rw [hnumber, show last = place by omega]

theorem index?_eq_none_iff : vocabulary.index? token = none ↔ token ∉ vocabulary.tokens :=
  lastPlace?_eq_none_iff

/-- As many numbers are stored as there are different tokens. -/
theorem length_indexMembers (vocabulary : Vocabulary) :
    vocabulary.indexMembers.length = vocabulary.tokens.toFinset.card := by
  have hnames : vocabulary.indexMembers.names.toFinset = vocabulary.tokens.toFinset := by
    ext token
    rw [List.mem_toFinset, List.mem_toFinset, mem_names_indexMembers]
  have hlength : vocabulary.indexMembers.names.length = vocabulary.indexMembers.length :=
    List.length_map _
  rw [← hlength, ← List.toFinset_card_of_nodup vocabulary.nodup_names_indexMembers, hnames]

/-! ### Numberings -/

/-- Listing and look-up are the inverse of each other, and as many numbers are stored as there are
places. -/
structure IsNumbering (vocabulary : Vocabulary) : Prop where
  /-- The token of a place has the number of the place. -/
  number : ∀ place token, vocabulary.tokens[place]? = some token →
    vocabulary.index? token = some place
  /-- What is not listed has no number. -/
  unlisted : ∀ token, token ∉ vocabulary.tokens → vocabulary.index? token = none
  /-- There are as many places as different tokens. -/
  count : vocabulary.size = vocabulary.tokens.toFinset.card
  /-- Each place is the number of a token. -/
  reached : ∀ place < vocabulary.size, ∃ token, vocabulary.index? token = some place
  /-- As many numbers are stored as there are places. -/
  stored : vocabulary.indexMembers.length = vocabulary.size

/-- If each place is the number of a token, it is the number of the token that it lists. -/
theorem index?_of_reached
    (h : ∀ place < vocabulary.size, ∃ token, vocabulary.index? token = some place)
    (hplace : vocabulary.tokens[place]? = some token) : vocabulary.index? token = some place := by
  have hlt : place < vocabulary.size := (List.getElem?_eq_some_iff.1 hplace).1
  obtain ⟨other, hother⟩ := h place hlt
  have hlisted := getElem?_of_index? hother
  rw [hplace, Option.some.injEq] at hlisted
  rw [hlisted]
  exact hother

/-- A token that is listed at two places does not have both numbers. -/
theorem nodup_of_number
    (h : ∀ place token, vocabulary.tokens[place]? = some token →
      vocabulary.index? token = some place) : vocabulary.tokens.Nodup := by
  rw [List.nodup_iff_getElem?_ne_getElem?]
  intro first second hlt hsecond heq
  have htoken : vocabulary.tokens[second]? = some vocabulary.tokens[second] :=
    List.getElem?_eq_getElem hsecond
  have hnumber := h second _ htoken
  rw [h first _ (heq.trans htoken), Option.some.injEq] at hnumber
  omega

/-- What is expected of a numbering holds or fails as a whole: it is that no token is listed
twice. -/
theorem tfae_nodup (vocabulary : Vocabulary) : List.TFAE [
    vocabulary.tokens.Nodup,
    ∀ place token, vocabulary.tokens[place]? = some token → vocabulary.index? token = some place,
    ∀ place < vocabulary.size, ∃ token, vocabulary.index? token = some place,
    vocabulary.size = vocabulary.tokens.toFinset.card,
    vocabulary.indexMembers.length = vocabulary.size] := by
  tfae_have 1 → 2 := by
    intro hnodup place token hplace
    refine index?_eq_some_iff.2 ⟨hplace, fun other hother => ?_⟩
    obtain ⟨hlt, -⟩ := List.getElem?_eq_some_iff.1 hother
    exact ((List.getElem?_inj hlt hnodup).1 (hother.trans hplace.symm)).le
  tfae_have 2 → 3 := by
    intro hnumber place hlt
    exact ⟨vocabulary.tokens[place], hnumber place _ (List.getElem?_eq_getElem hlt)⟩
  tfae_have 3 → 2 := fun hreached place token => index?_of_reached hreached
  tfae_have 2 → 1 := nodup_of_number
  tfae_have 1 ↔ 4 := by
    rw [eq_comm, size, ← Multiset.coe_nodup, ← Multiset.toFinset_card_eq_card_iff_nodup]
    rfl
  tfae_have 4 ↔ 5 := by
    rw [length_indexMembers, eq_comm]
  tfae_finish

/-- A vocabulary is a numbering exactly if no token is listed twice. -/
theorem isNumbering_iff : vocabulary.IsNumbering ↔ vocabulary.tokens.Nodup := by
  have htfae := vocabulary.tfae_nodup
  constructor
  · intro h
    exact nodup_of_number h.number
  · intro hnodup
    exact {
      number := (htfae.out 0 1).1 hnodup
      unlisted := fun _ => index?_eq_none_iff.2
      count := (htfae.out 0 3).1 hnodup
      reached := (htfae.out 0 2).1 hnodup
      stored := (htfae.out 0 4).1 hnodup }

/-! ### Vocabularies that are read -/

/-- A vocabulary is read with an encoder, or with the decoder of a model. -/
inductive IsRead (vocabulary : Vocabulary) : Prop where
  | encoder (value : Value) (encoder : Encoder) (hread : Encoder.ofValue true value = .ok encoder)
    (hvocabulary : encoder.vocabulary = some vocabulary)
  | decoder (value : Value) (config : ModelConfig)
    (hread : ModelConfig.ofValue true value = .ok config)
    (hvocabulary : config.decoder.vocabulary = some vocabulary)

/-- Every list of tokens is read as a vocabulary that a word can count, also one that lists a token
twice. -/
theorem isRead_iff : vocabulary.IsRead ↔ vocabulary.size < Word.bound64 := by
  have hsize : IsStorable (some vocabulary) → vocabulary.size < Word.bound64 := by
    rintro ⟨_, ⟨⟩, hlt⟩
    exact hlt
  constructor
  · intro h
    cases h with
    | encoder value encoder hread hvocabulary =>
      have hstorable := (Encoder.of_ofValue hread).1 rfl
      rw [hvocabulary] at hstorable
      exact hsize hstorable
    | decoder value config hread hvocabulary =>
      have hstorable := ((ModelConfig.of_ofValue hread).2.1 rfl).decoder
      rw [hvocabulary] at hstorable
      exact hsize hstorable
  · intro hlt
    let encoder : Encoder := ⟨.types, 8, 1, 2, some vocabulary⟩
    have hread : Encoder.ofValue true encoder.toValue = .ok (encoder.keeping true) :=
      Encoder.ofValue_toValue fun _ => ⟨vocabulary, rfl, hlt⟩
    exact .encoder _ _ hread rfl

/-- How the vocabularies that are read number their tokens.

A vocabulary is read if a word can count the places of its list, whatever tokens the list repeats.
Just those tokens have a number that are listed, and it is the last place of the token; as many
numbers are stored as there are different tokens.

The vocabulary is a numbering, whose list and numbers are the inverse of each other, exactly if no
token is listed twice.  Otherwise every part of that fails: some place is not the number of its
token, some place is the number of no token, there are fewer tokens than places, and fewer numbers
are stored than there are places. -/
theorem isNumbering_iff_nodup (vocabulary : Vocabulary) :
    (vocabulary.IsRead ↔ vocabulary.size < Word.bound64) ∧
    (∀ token, vocabulary.index? token = none ↔ token ∉ vocabulary.tokens) ∧
    (∀ token place, vocabulary.index? token = some place ↔
      vocabulary.tokens[place]? = some token ∧
        ∀ other, vocabulary.tokens[other]? = some token → other ≤ place) ∧
    vocabulary.indexMembers.length = vocabulary.tokens.toFinset.card ∧
    (vocabulary.IsNumbering ↔ vocabulary.tokens.Nodup) ∧
    List.TFAE [
      vocabulary.tokens.Nodup,
      ∀ place token, vocabulary.tokens[place]? = some token → vocabulary.index? token = some place,
      ∀ place < vocabulary.size, ∃ token, vocabulary.index? token = some place,
      vocabulary.size = vocabulary.tokens.toFinset.card,
      vocabulary.indexMembers.length = vocabulary.size] :=
  ⟨isRead_iff, fun _ => index?_eq_none_iff, fun _ _ => index?_eq_some_iff,
    vocabulary.length_indexMembers, isNumbering_iff, vocabulary.tfae_nodup⟩

/-- An encoder is read whose vocabulary lists a token twice, although both parts that are compared
with the list are there: the number of places and the number of the token.  No token has the number
of the first place. -/
theorem not_isNumbering_repeating :
    ∃ encoder vocabulary,
      Encoder.ofValue true (.object
        [("name", .string "types"), ("units", .ofNat 8), ("tile", .ofNat 1), ("max_num", .ofNat 2),
         ("chars", .ofTexts ["a", "a"]), ("vocab", .object [("a", .ofNat 1)]),
         ("vocab_size", .ofNat 2)]) = .ok encoder ∧
      encoder.vocabulary = some vocabulary ∧
      vocabulary.tokens = ["a", "a"] ∧ vocabulary.index? "a" = some 1 ∧
      (∀ token, vocabulary.index? token ≠ some 0) ∧
      vocabulary.size = 2 ∧ vocabulary.indexMembers.length = 1 ∧ ¬ vocabulary.IsNumbering := by
  let vocabulary : Vocabulary := ⟨["a", "a"]⟩
  have hread : Encoder.ofValue true (.object
      [("name", .string "types"), ("units", .ofNat 8), ("tile", .ofNat 1), ("max_num", .ofNat 2),
       ("chars", .ofTexts ["a", "a"]), ("vocab", .object [("a", .ofNat 1)]),
       ("vocab_size", .ofNat 2)]) = .ok ⟨.types, 8, 1, 2, some vocabulary⟩ := by cbv
  have hfirst : ∀ token, vocabulary.index? token ≠ some 0 := by
    intro token h
    obtain ⟨hplace, hlast⟩ := index?_eq_some_iff.1 h
    -- the token of the first place is listed again behind it
    exact absurd (hlast 1 hplace) (by decide)
  refine ⟨_, vocabulary, hread, rfl, rfl, by decide, hfirst, rfl, by decide, fun h => ?_⟩
  obtain ⟨token, htoken⟩ := h.reached 0 (by decide)
  exact hfirst token htoken

end Vocabulary

end EvidenceSynthesis
