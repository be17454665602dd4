import EvidenceSynthesis.Model.Config
import EvidenceSynthesis.Proofs.Evidence.Requests
import EvidenceSynthesis.Proofs.Json.Nesting
import EvidenceSynthesis.Proofs.Model.CommonTokens
import Mathlib

/-!
# Settings that are stored

The stored form of settings is read back as these settings.  Reading passes over the vocabularies
or asks for all of them (`ModelConfig.keeping`), and where it asks for them, they must be there and
a word must be able to hold the number of their places (`ModelConfig.HasVocabularies`).  Settings
that were read meet this, so that they can be stored and read again
(`ModelConfig.ofValue_toValue_of_ofValue`).

A vocabulary is stored in two ways, as a list of tokens and as a map from tokens to numbers, and the
map must fit the list.  Where a token is listed twice, both the map and `Vocabulary.index?` give its
last place (`Vocabulary.get?_indexMembers`).
-/

namespace EvidenceSynthesis

open Json (Value Members ShapeError Reader required)

/-! ### Steps that succeed -/

theorem mapError_eq_ok_iff {ε ε' α : Type} {f : ε → ε'} {result : Except ε α} {a : α} :
    result.mapError f = .ok a ↔ result = .ok a := by
  cases result <;> simp [Except.mapError]

theorem map_eq_ok_iff {ε α β : Type} {f : α → β} {result : Except ε α} {b : β} :
    result.map f = .ok b ↔ ∃ a, result = .ok a ∧ f a = b := by
  cases result <;> simp [Except.map]

/-- A test that is passed has no effect, and one that is not passed leaves no result. -/
theorem ite_throw_eq_ok_iff {ε α : Type} {p : Prop} [Decidable p] {error : ε}
    {next : Except ε α} {a : α} :
    (if p then (throw error : Except ε PUnit) >>= fun _ => next else next) = .ok a ↔
      ¬ p ∧ next = .ok a := by
  by_cases hp : p
  · rw [if_pos hp]
    exact iff_of_false nofun fun h => h.1 hp
  · rw [if_neg hp]
    exact ⟨fun h => ⟨hp, h⟩, And.right⟩

theorem Json.required_eq_ok_iff {α : Type} {field : String} {found : Option α} {a : α} :
    required field found = .ok a ↔ found = some a := by
  cases found <;> simp [required]

/-! ### Reading what is written -/

namespace Json.Reader

theorem word_ofNat (n : Nat) : word (.ofNat n) = .ok (UInt64.ofNat n) := rfl

theorem optional_word_ofNat (n : Nat) :
    optional word (.ofNat n) = .ok (some (UInt64.ofNat n)) := rfl

theorem optional_texts_ofTexts (tokens : List String) :
    optional texts (.ofTexts tokens) = .ok (some tokens) := by
  show (texts (.ofTexts tokens)).map some = _
  rw [texts_eq_ok_iff.2 rfl]
  rfl

end Json.Reader

/-! ### Giving members one by one -/

namespace Json.RecordForm

variable {δ : Type} {form : RecordForm δ}

/-- Members that are given one by one take a draft to another one. -/
def Gives (form : RecordForm δ) (entries : List (String × Value)) (draft final : δ) : Prop :=
  entries.foldlM (fun draft entry => form.give entry.1 entry.2 draft) draft = .ok final

theorem Gives.nil (draft : δ) : form.Gives [] draft draft := rfl

theorem Gives.cons {name : String} {value : Value} {rest : List (String × Value)}
    {draft next final : δ} (h : form.give name value draft = .ok next)
    (hrest : form.Gives rest next final) : form.Gives ((name, value) :: rest) draft final := by
  rw [Gives, List.foldlM_cons, h]
  exact hrest

/-- Entries may be given in two parts. -/
theorem Gives.append {entries others : List (String × Value)} {draft next final : δ}
    (h : form.Gives entries draft next) (hothers : form.Gives others next final) :
    form.Gives (entries ++ others) draft final := by
  rw [Gives, List.foldlM_append, h]
  exact hothers

/-- An object is read by giving its members to the draft without any. -/
theorem read_object {members : Members} {draft : δ} (h : form.Gives members form.blank draft) :
    form.read (.object members) = .ok draft := h

end Json.RecordForm

/-! ### Vocabularies -/

namespace Vocabulary

/-- The tokens of a vocabulary with their numbers, as words. -/
def numbers (vocabulary : Vocabulary) : List (String × UInt64) :=
  vocabulary.indexMembers.names.map fun token =>
    (token, UInt64.ofNat ((vocabulary.index? token).getD 0))

/-- The members that a vocabulary is stored with. -/
def entries (vocabulary : Vocabulary) : Members :=
  [(charsKey, .ofTexts vocabulary.tokens), (indexKey, .object vocabulary.indexMembers),
   (sizeKey, .ofNat vocabulary.size)]

/-- A token that is put at each of its places keeps the last one. -/
theorem get?_foldl_put (token : String) (start : Nat) (tokens : List String) (before : Members) :
    Members.get? token
        (((tokens.zipIdx start).map fun (other, place) => (other, Value.ofNat place)).foldl
          (fun members entry => members.put entry.1 entry.2) before) =
      ((lastPlace? token start tokens).map Value.ofNat).or (before.get? token) := by
  induction tokens generalizing start before with
  | nil => rfl
  | cons other rest ih =>
    rw [List.zipIdx_cons, List.map_cons, List.foldl_cons, ih, lastPlace?]
    by_cases hother : other = token
    · subst hother
      rw [Members.get?_put_self, if_pos rfl]
      cases lastPlace? other (start + 1) rest <;> rfl
    · rw [Members.get?_put_of_ne (Ne.symm hother), if_neg hother, Option.or_none]

/-- A vocabulary is stored with the number of each of its tokens. -/
theorem get?_indexMembers (vocabulary : Vocabulary) (token : String) :
    vocabulary.indexMembers.get? token = (vocabulary.index? token).map Value.ofNat := by
  rw [indexMembers, Members.ofList, get?_foldl_put, Members.get?_nil, Option.or_none]
  rfl

/-- The indices of a vocabulary name no token twice. -/
theorem nodup_names_indexMembers (vocabulary : Vocabulary) :
    vocabulary.indexMembers.names.Nodup := by
  rw [indexMembers, Members.ofList]
  refine List.foldlRecOn (motive := fun members : Members => members.names.Nodup) _ _
    List.nodup_nil fun members hmembers entry _ => ?_
  exact Members.nodup_names_put hmembers entry.1 entry.2

/-- The names under which a vocabulary is stored are its tokens. -/
theorem mem_names_indexMembers {vocabulary : Vocabulary} {token : String} :
    token ∈ vocabulary.indexMembers.names ↔ token ∈ vocabulary.tokens := by
  rw [← not_iff_not, ← Members.get?_eq_none_iff, get?_indexMembers, Option.map_eq_none_iff, index?,
    lastPlace?_eq_none_iff]

/-- A stored number is that of its token, and one of the places. -/
theorem exists_place_of_mem {vocabulary : Vocabulary} {member : String × Value}
    (h : member ∈ vocabulary.indexMembers) :
    ∃ place, vocabulary.index? member.1 = some place ∧ place < vocabulary.size ∧
      member.2 = .ofNat place := by
  have hget := Members.get?_of_mem vocabulary.nodup_names_indexMembers h
  rw [get?_indexMembers, Option.map_eq_some_iff] at hget
  obtain ⟨place, hplace, hvalue⟩ := hget
  exact ⟨place, hplace, index?_lt hplace, hvalue.symm⟩

/-- The map of a vocabulary is read as the numbers of its tokens. -/
theorem optional_words_indexMembers (vocabulary : Vocabulary) :
    Reader.optional Reader.words (.object vocabulary.indexMembers) =
      .ok (some vocabulary.numbers) := by
  have hwords : Reader.words (.object vocabulary.indexMembers) = .ok vocabulary.numbers := by
    refine mapM_eq_ok_iff.2 ?_
    rw [numbers, Members.names, List.map_map, List.forall₂_map_right_iff, List.forall₂_same]
    intro member hmember
    obtain ⟨place, hplace, -, hvalue⟩ := exists_place_of_mem hmember
    simp only [hvalue, Reader.word_ofNat, Function.comp_apply, hplace, Option.getD_some]
    rfl
  show (Reader.words (.object vocabulary.indexMembers)).map some = _
  rw [hwords]
  rfl

theorem nodup_eraseDups : ∀ tokens : List String, tokens.eraseDups.Nodup
  | [] => List.nodup_nil
  | token :: rest => by
    rw [List.eraseDups_cons, List.nodup_cons, List.mem_eraseDups]
    exact ⟨by simp, nodup_eraseDups _⟩
termination_by tokens => tokens.length
decreasing_by exact Nat.lt_succ_of_le (List.length_filter_le _ _)

/-- A vocabulary has the numbers that are stored with it, if words can hold them. -/
theorem hasNumbers_numbers {vocabulary : Vocabulary} (h : vocabulary.size < Word.bound64) :
    vocabulary.hasNumbers vocabulary.numbers = true := by
  have hperm : vocabulary.indexMembers.names.Perm vocabulary.tokens.eraseDups := by
    refine (List.perm_ext_iff_of_nodup vocabulary.nodup_names_indexMembers
      (nodup_eraseDups vocabulary.tokens)).2 fun token => ?_
    rw [mem_names_indexMembers, List.mem_eraseDups]
  have hlength : vocabulary.numbers.length = vocabulary.tokens.eraseDups.length := by
    rw [numbers, List.length_map, hperm.length_eq]
  rw [hasNumbers, Bool.and_eq_true, beq_iff_eq, List.all_eq_true]
  refine ⟨hlength, fun number hnumber => ?_⟩
  obtain ⟨token, htoken, rfl⟩ := List.mem_map.1 hnumber
  obtain ⟨member, hmember, rfl⟩ := List.mem_map.1 htoken
  obtain ⟨place, hplace, hlt, -⟩ := exists_place_of_mem hmember
  simp only [hplace, Option.getD_some, beq_iff_eq, Option.some.injEq]
  exact (UInt64.toNat_ofNat_of_lt' (Nat.lt_trans hlt h)).symm

/-- There is a vocabulary, and a word can hold the number of its places. -/
def IsStorable (vocabulary : Option Vocabulary) : Prop :=
  ∃ v, vocabulary = some v ∧ v.size < Word.bound64

/-- A vocabulary whose size was read from a word can be stored. -/
theorem isStorable_of_size {vocabulary : Vocabulary} {size : Option UInt64}
    (h : size.map UInt64.toNat = some vocabulary.size) : IsStorable (some vocabulary) := by
  obtain ⟨n, -, hn⟩ := Option.map_eq_some_iff.1 h
  exact ⟨vocabulary, rfl, hn ▸ n.toNat_lt⟩

end Vocabulary

/-! ### Encoders -/

theorem Kind.named_name (kind : Kind) : named kind.name = .ok kind := by
  cases kind <;> rfl

namespace Encoder

/-- The encoder with its vocabulary, or without it. -/
def keeping (withVocabulary : Bool) (encoder : Encoder) : Encoder :=
  { encoder with vocabulary := if withVocabulary then encoder.vocabulary else none }

@[simp] theorem kind_keeping (withVocabulary : Bool) (encoder : Encoder) :
    (encoder.keeping withVocabulary).kind = encoder.kind := rfl

/-- The members that every encoder is stored with. -/
def settings (encoder : Encoder) : Members :=
  [("name", .string encoder.kind.name),
   (EncoderField.units.name, .ofNat encoder.units.toNat),
   (EncoderField.tile.name, .ofNat encoder.tile.toNat),
   (EncoderField.maxNum.name, .ofNat encoder.maxNum.toNat)]

/-- The settings of an encoder are read one by one. -/
theorem gives_settings (encoder : Encoder) :
    Draft.form.Gives encoder.settings {} {
      name := some encoder.kind.name
      units := some encoder.units
      tile := some encoder.tile
      maxNum := some encoder.maxNum } := by
  have hname : ∀ draft name, Draft.form.give "name" (.string name) draft =
      .ok { draft with name := some name } := fun _ _ => rfl
  have hunits : ∀ draft n, Draft.form.give EncoderField.units.name (.ofNat n) draft =
      .ok { draft with units := some (UInt64.ofNat n) } := fun _ _ => rfl
  have htile : ∀ draft n, Draft.form.give EncoderField.tile.name (.ofNat n) draft =
      .ok { draft with tile := some (UInt64.ofNat n) } := fun _ _ => rfl
  have hmaxNum : ∀ draft n, Draft.form.give EncoderField.maxNum.name (.ofNat n) draft =
      .ok { draft with maxNum := some (UInt64.ofNat n) } := fun _ _ => rfl
  have hgives : Draft.form.Gives encoder.settings {} _ :=
    .cons (hname _ _) (.cons (hunits _ _) (.cons (htile _ _) (.cons (hmaxNum _ _) (.nil _))))
  simpa only [UInt64.ofNat_toNat] using hgives

/-- The parts of a vocabulary are read one by one. -/
theorem gives_vocabulary (vocabulary : Vocabulary) (draft : Draft) :
    Draft.form.Gives vocabulary.entries draft { draft with
      chars := some vocabulary.tokens
      numbers := some vocabulary.numbers
      size := some (UInt64.ofNat vocabulary.size) } := by
  have hchars : Draft.form.give Vocabulary.charsKey (.ofTexts vocabulary.tokens) draft =
      .ok { draft with chars := some vocabulary.tokens } :=
    map_eq_ok_iff.2 ⟨_, Reader.optional_texts_ofTexts vocabulary.tokens, rfl⟩
  have hnumbers : ∀ draft,
      Draft.form.give Vocabulary.indexKey (.object vocabulary.indexMembers) draft =
        .ok { draft with numbers := some vocabulary.numbers } := fun draft =>
    map_eq_ok_iff.2 ⟨_, vocabulary.optional_words_indexMembers, rfl⟩
  have hsize : ∀ draft, Draft.form.give Vocabulary.sizeKey (.ofNat vocabulary.size) draft =
      .ok { draft with size := some (UInt64.ofNat vocabulary.size) } := fun draft =>
    map_eq_ok_iff.2 ⟨_, Reader.optional_word_ofNat vocabulary.size, rfl⟩
  exact .cons hchars (.cons (hnumbers _) (.cons (hsize _) (.nil _)))

/-- An encoder is stored with its settings, and with its vocabulary behind them if it has one. -/
theorem toValue_eq (encoder : Encoder) :
    encoder.toValue = .object
      (encoder.settings ++ (encoder.vocabulary.map Vocabulary.entries).getD []) := by
  obtain ⟨kind, units, tile, maxNum, vocabulary⟩ := encoder
  cases vocabulary <;> rfl

/-- Every part of an encoder is read from its stored form. -/
theorem read_toValue (encoder : Encoder) :
    Draft.form.read encoder.toValue = .ok {
      name := some encoder.kind.name
      units := some encoder.units
      tile := some encoder.tile
      maxNum := some encoder.maxNum
      chars := encoder.vocabulary.map Vocabulary.tokens
      numbers := encoder.vocabulary.map Vocabulary.numbers
      size := encoder.vocabulary.map fun vocabulary => UInt64.ofNat vocabulary.size } := by
  rw [toValue_eq]
  cases encoder.vocabulary with
  | none => exact Json.RecordForm.read_object (encoder.gives_settings.append (.nil _))
  | some vocabulary =>
    exact Json.RecordForm.read_object
      (encoder.gives_settings.append (gives_vocabulary vocabulary _))

/-- A vocabulary is read from its tokens, if the other parts agree with them. -/
theorem Draft.vocabulary_eq_ok_iff {draft : Draft} {name : String} {vocabulary : Vocabulary} :
    draft.vocabulary name = .ok vocabulary ↔
      draft.chars = some vocabulary.tokens ∧
        draft.size.map UInt64.toNat = some vocabulary.size ∧
        ∀ numbers ∈ draft.numbers, vocabulary.hasNumbers numbers = true := by
  obtain ⟨tokens⟩ := vocabulary
  unfold Draft.vocabulary
  cases draft.chars with
  | none => exact iff_of_false nofun (by simp)
  | some chars =>
    have hnumbers : ¬ (draft.numbers.any fun numbers => !Vocabulary.hasNumbers ⟨chars⟩ numbers) ↔
        ∀ numbers ∈ draft.numbers, Vocabulary.hasNumbers ⟨chars⟩ numbers = true := by
      cases draft.numbers <;> simp
    simp only [ite_throw_eq_ok_iff, hnumbers, not_not]
    constructor
    · rintro ⟨hsize, hagrees, h⟩
      cases h
      exact ⟨rfl, hsize, hagrees⟩
    · rintro ⟨⟨⟩, hsize, hagrees⟩
      exact ⟨hsize, hagrees, rfl⟩

/-- An encoder is read part by part; its vocabulary is not even looked at unless it is asked for. -/
theorem ofValue_eq_ok_iff {withVocabulary : Bool} {value : Value} {encoder : Encoder} :
    ofValue withVocabulary value = .ok encoder ↔
      ∃ draft name, Draft.form.read value = .ok draft ∧ draft.name = some name ∧
        Kind.named name = .ok encoder.kind ∧ draft.units = some encoder.units ∧
        draft.tile = some encoder.tile ∧ draft.maxNum = some encoder.maxNum ∧
        if withVocabulary then
          ∃ vocabulary, draft.vocabulary name = .ok vocabulary ∧
            encoder.vocabulary = some vocabulary
        else encoder.vocabulary = none := by
  unfold ofValue
  simp only [bind_eq_ok_iff, EvidenceError.ofShape, mapError_eq_ok_iff, Json.required_eq_ok_iff]
  constructor
  · rintro ⟨draft, hdraft, name, hname, kind, hkind, h⟩
    rcases hunits : draft.units with _ | units
    · rw [hunits] at h
      cases h
    rcases htile : draft.tile with _ | tile
    · rw [hunits, htile] at h
      cases h
    rcases hmaxNum : draft.maxNum with _ | maxNum
    · rw [hunits, htile, hmaxNum] at h
      cases h
    rw [hunits, htile, hmaxNum] at h
    cases withVocabulary with
    | false =>
      cases h
      exact ⟨draft, name, hdraft, hname, hkind, hunits, htile, hmaxNum, rfl⟩
    | true =>
      obtain ⟨_, hvocabulary, h⟩ := bind_eq_ok_iff.1 h
      cases h
      obtain ⟨own, hown, rfl⟩ := map_eq_ok_iff.1 hvocabulary
      exact ⟨draft, name, hdraft, hname, hkind, hunits, htile, hmaxNum, own, hown, rfl⟩
  · rintro ⟨draft, name, hdraft, hname, hkind, hunits, htile, hmaxNum, hvocabulary⟩
    refine ⟨draft, hdraft, name, hname, encoder.kind, hkind, ?_⟩
    rw [hunits, htile, hmaxNum]
    obtain ⟨kind, units, tile, maxNum, vocabulary⟩ := encoder
    cases withVocabulary with
    | false =>
      obtain rfl : vocabulary = none := hvocabulary
      rfl
    | true =>
      obtain ⟨own, hown, hsome⟩ := hvocabulary
      obtain rfl : vocabulary = some own := hsome
      exact bind_eq_ok_iff.2 ⟨some own, map_eq_ok_iff.2 ⟨own, hown, rfl⟩, rfl⟩

/-- An encoder is read from its stored form, with its vocabulary or without it. -/
theorem ofValue_toValue {withVocabulary : Bool} {encoder : Encoder}
    (h : withVocabulary = true → Vocabulary.IsStorable encoder.vocabulary) :
    ofValue withVocabulary encoder.toValue = .ok (encoder.keeping withVocabulary) := by
  refine ofValue_eq_ok_iff.2 ⟨_, encoder.kind.name, encoder.read_toValue, rfl,
    Kind.named_name encoder.kind, rfl, rfl, rfl, ?_⟩
  cases withVocabulary with
  | false => rfl
  | true =>
    obtain ⟨vocabulary, hvocabulary, hlt⟩ := h rfl
    refine ⟨vocabulary, Draft.vocabulary_eq_ok_iff.2 ?_, hvocabulary⟩
    rw [hvocabulary, Option.map_some, Option.map_some, Option.map_some]
    refine ⟨rfl, congrArg some (UInt64.toNat_ofNat_of_lt' hlt), ?_⟩
    rintro numbers ⟨⟩
    exact Vocabulary.hasNumbers_numbers hlt

/-- An encoder that was read with its vocabulary can be stored, and one that was read without it has
none. -/
theorem of_ofValue {withVocabulary : Bool} {value : Value} {encoder : Encoder}
    (h : ofValue withVocabulary value = .ok encoder) :
    (withVocabulary = true → Vocabulary.IsStorable encoder.vocabulary) ∧
      encoder.keeping withVocabulary = encoder := by
  obtain ⟨draft, name, -, -, -, -, -, -, hvocabulary⟩ := ofValue_eq_ok_iff.1 h
  cases withVocabulary with
  | false =>
    obtain ⟨kind, units, tile, maxNum, vocabulary⟩ := encoder
    obtain rfl : vocabulary = none := hvocabulary
    exact ⟨nofun, rfl⟩
  | true =>
    obtain ⟨vocabulary, hread, hsome⟩ := hvocabulary
    obtain ⟨-, hsize, -⟩ := Draft.vocabulary_eq_ok_iff.1 hread
    refine ⟨fun _ => hsome ▸ Vocabulary.isStorable_of_size hsize, rfl⟩

/-- An encoder of a list that is read was read from one of the items. -/
theorem of_forall₂_ofValue {withVocabulary : Bool} {items : List Value} {encoders : List Encoder}
    (h : List.Forall₂ (fun item encoder => ofValue withVocabulary item = .ok encoder) items
      encoders) :
    ∀ encoder ∈ encoders,
      (withVocabulary = true → Vocabulary.IsStorable encoder.vocabulary) ∧
        encoder.keeping withVocabulary = encoder := by
  induction h with
  | nil => simp
  | cons hitem _ ih => exact List.forall_mem_cons.2 ⟨of_ofValue hitem, ih⟩

/-- A list of encoders is read exactly if each of its items is. -/
theorem listOfValue_eq_ok_iff {withVocabulary : Bool} {value : Value} {encoders : List Encoder} :
    listOfValue withVocabulary value = .ok encoders ↔
      ∃ items, value = .array items ∧
        List.Forall₂ (fun item encoder => ofValue withVocabulary item = .ok encoder) items
          encoders := by
  cases value with
  | array items =>
    rw [listOfValue, mapM_eq_ok_iff]
    exact ⟨fun h => ⟨items, rfl, h⟩, fun ⟨_, hitems, h⟩ => Value.array.inj hitems ▸ h⟩
  | _ => exact iff_of_false nofun fun ⟨_, hitems, _⟩ => nomatch hitems

end Encoder

/-! ### Decoders -/

namespace Decoder

/-- The decoder with its vocabulary, or without it. -/
def keeping (withVocabulary : Bool) (decoder : Decoder) : Decoder :=
  { decoder with vocabulary := if withVocabulary then decoder.vocabulary else none }

/-- The draft that the stored form of a decoder is read as. -/
def draft (decoder : Decoder) : Draft where
  units := some decoder.units
  maxAstDepth := some decoder.maxAstDepth
  chars := decoder.vocabulary.map Vocabulary.tokens
  size := decoder.vocabulary.map fun vocabulary => UInt64.ofNat vocabulary.size

/-- The members that every decoder is stored with. -/
def settings (decoder : Decoder) : Members :=
  [("units", .ofNat decoder.units.toNat), ("max_ast_depth", .ofNat decoder.maxAstDepth.toNat)]

/-- The settings of a decoder are read one by one. -/
theorem gives_settings (decoder : Decoder) :
    Draft.form.Gives decoder.settings {} {
      units := some decoder.units
      maxAstDepth := some decoder.maxAstDepth } := by
  have hunits : ∀ draft n, Draft.form.give "units" (.ofNat n) draft =
      .ok { draft with units := some (UInt64.ofNat n) } := fun _ _ => rfl
  have hdepth : ∀ draft n, Draft.form.give "max_ast_depth" (.ofNat n) draft =
      .ok { draft with maxAstDepth := some (UInt64.ofNat n) } := fun _ _ => rfl
  have hgives : Draft.form.Gives decoder.settings {} _ :=
    .cons (hunits _ _) (.cons (hdepth _ _) (.nil _))
  simpa only [UInt64.ofNat_toNat] using hgives

/-- Of the parts of a vocabulary, a decoder reads the tokens and their number. -/
theorem gives_vocabulary (vocabulary : Vocabulary) (draft : Draft) :
    Draft.form.Gives vocabulary.entries draft { draft with
      chars := some vocabulary.tokens
      size := some (UInt64.ofNat vocabulary.size) } := by
  have hchars : Draft.form.give Vocabulary.charsKey (.ofTexts vocabulary.tokens) draft =
      .ok { draft with chars := some vocabulary.tokens } :=
    map_eq_ok_iff.2 ⟨_, Reader.optional_texts_ofTexts vocabulary.tokens, rfl⟩
  have hnumbers : ∀ draft,
      Draft.form.give Vocabulary.indexKey (.object vocabulary.indexMembers) draft = .ok draft :=
    fun _ => rfl
  have hsize : ∀ draft, Draft.form.give Vocabulary.sizeKey (.ofNat vocabulary.size) draft =
      .ok { draft with size := some (UInt64.ofNat vocabulary.size) } := fun draft =>
    map_eq_ok_iff.2 ⟨_, Reader.optional_word_ofNat vocabulary.size, rfl⟩
  exact .cons hchars (.cons (hnumbers _) (.cons (hsize _) (.nil _)))

/-- A decoder is stored with its settings, and with its vocabulary behind them if it has one. -/
theorem toValue_eq (decoder : Decoder) :
    decoder.toValue = .object
      (decoder.settings ++ (decoder.vocabulary.map Vocabulary.entries).getD []) := by
  obtain ⟨units, maxAstDepth, vocabulary⟩ := decoder
  cases vocabulary <;> rfl

/-- Every part of a decoder is read from its stored form, first of all without a vocabulary. -/
theorem read_toValue (decoder : Decoder) :
    read decoder.toValue = .ok ({ decoder with vocabulary := none }, decoder.draft) := by
  have hdraft : Draft.form.read decoder.toValue = .ok decoder.draft := by
    rw [toValue_eq, draft]
    cases decoder.vocabulary with
    | none => exact Json.RecordForm.read_object (decoder.gives_settings.append (.nil _))
    | some vocabulary =>
      exact Json.RecordForm.read_object
        (decoder.gives_settings.append (gives_vocabulary vocabulary _))
  rw [read, hdraft]
  rfl

/-- The vocabulary of a decoder is read from its tokens, if their number is as it was stored. -/
theorem Draft.vocabulary_eq_ok_iff {draft : Draft} {vocabulary : Vocabulary} :
    draft.vocabulary = .ok vocabulary ↔
      draft.chars = some vocabulary.tokens ∧
        draft.size.map UInt64.toNat = some vocabulary.size := by
  obtain ⟨tokens⟩ := vocabulary
  unfold Draft.vocabulary
  cases draft.chars with
  | none => exact iff_of_false nofun (by simp)
  | some chars =>
    simp only [ite_throw_eq_ok_iff, not_not]
    constructor
    · rintro ⟨hsize, h⟩
      cases h
      exact ⟨rfl, hsize⟩
    · rintro ⟨⟨⟩, hsize⟩
      exact ⟨hsize, rfl⟩

end Decoder

/-! ### Settings -/

namespace ModelConfig

/-- The settings with all vocabularies, or without any. -/
def keeping (withVocabularies : Bool) (config : ModelConfig) : ModelConfig :=
  { config with
    encoders := config.encoders.map (Encoder.keeping withVocabularies)
    decoder := config.decoder.keeping withVocabularies }

/-- All vocabularies are there and can be stored. -/
structure HasVocabularies (config : ModelConfig) : Prop where
  encoders : ∀ encoder ∈ config.encoders, Vocabulary.IsStorable encoder.vocabulary
  decoder : Vocabulary.IsStorable config.decoder.vocabulary

/-- The settings that an outline is completed to. -/
def Outline.complete (outline : Outline) (encoders : List Encoder)
    (vocabulary : Option Vocabulary) : ModelConfig where
  latentSize := outline.latentSize
  batchSize := outline.batchSize
  numEpochs := outline.numEpochs
  learningRate := outline.learningRate
  printStep := outline.printStep
  alpha := outline.alpha
  beta := outline.beta
  encoders := encoders
  decoder := { outline.decoder.1 with vocabulary := vocabulary }

/-- Settings are read part by part; vocabularies are not even looked at unless they are asked
for. -/
theorem ofValue_eq_ok_iff {withVocabularies : Bool} {value : Value} {config : ModelConfig} :
    ofValue withVocabularies value = .ok config ↔
      ∃ outline encoders vocabulary, Outline.read value = .ok outline ∧
        Encoder.listOfValue withVocabularies outline.evidence = .ok encoders ∧
        repeatedKind? [] (encoders.map (·.kind)) = none ∧
        (if withVocabularies then
          ∃ own, outline.decoder.2.vocabulary = .ok own ∧ vocabulary = some own
        else vocabulary = none) ∧
        config = outline.complete encoders vocabulary := by
  unfold ofValue
  simp only [bind_eq_ok_iff, mapError_eq_ok_iff]
  constructor
  · rintro ⟨outline, houtline, encoders, hencoders, h⟩
    rcases hkinds : repeatedKind? [] (encoders.map (·.kind)) with _ | kind
    · rw [hkinds] at h
      cases withVocabularies with
      | false =>
        cases h
        exact ⟨outline, encoders, none, houtline, hencoders, hkinds, rfl, rfl⟩
      | true =>
        obtain ⟨_, hvocabulary, h⟩ := bind_eq_ok_iff.1 h
        cases h
        obtain ⟨own, hown, rfl⟩ := map_eq_ok_iff.1 hvocabulary
        exact ⟨outline, encoders, some own, houtline, hencoders, hkinds,
          ⟨own, mapError_eq_ok_iff.1 hown, rfl⟩, rfl⟩
    · rw [hkinds] at h
      cases h
  · rintro ⟨outline, encoders, vocabulary, houtline, hencoders, hkinds, hvocabulary, rfl⟩
    refine ⟨outline, houtline, encoders, hencoders, ?_⟩
    rw [hkinds]
    cases withVocabularies with
    | false =>
      obtain rfl : vocabulary = none := hvocabulary
      rfl
    | true =>
      obtain ⟨own, hown, rfl⟩ := hvocabulary
      exact bind_eq_ok_iff.2 ⟨some own,
        map_eq_ok_iff.2 ⟨own, mapError_eq_ok_iff.2 hown, rfl⟩, rfl⟩

/-- The outline of the stored form of settings. -/
theorem read_toValue (config : ModelConfig) :
    Outline.read config.toValue = .ok {
      latentSize := config.latentSize
      batchSize := config.batchSize
      numEpochs := config.numEpochs
      learningRate := config.learningRate
      printStep := config.printStep
      alpha := config.alpha
      beta := config.beta
      evidence := .array (config.encoders.map Encoder.toValue)
      decoder := ({ config.decoder with vocabulary := none }, config.decoder.draft) } := by
  simp [toValue, Outline.read, Json.RecordForm.read, Json.RecordForm.giveAll, Draft.form,
    Draft.give, Reader.word_ofNat, Reader.number, Decoder.read_toValue, required, Except.map, bind,
    Except.bind, pure, Except.pure]

/-- Settings are read from their stored form, with their vocabularies or without them. -/
theorem ofValue_toValue {withVocabularies : Bool} {config : ModelConfig}
    (hkinds : repeatedKind? [] (config.encoders.map (·.kind)) = none)
    (h : withVocabularies = true → config.HasVocabularies) :
    ofValue withVocabularies config.toValue = .ok (config.keeping withVocabularies) := by
  refine ofValue_eq_ok_iff.2 ⟨_, config.encoders.map (Encoder.keeping withVocabularies),
    (config.decoder.keeping withVocabularies).vocabulary, config.read_toValue,
    Encoder.listOfValue_eq_ok_iff.2 ⟨_, rfl, ?_⟩, ?_, ?_, rfl⟩
  · rw [List.forall₂_map_left_iff, List.forall₂_map_right_iff, List.forall₂_same]
    exact fun encoder hencoder =>
      Encoder.ofValue_toValue fun hwith => (h hwith).encoders encoder hencoder
  · rw [List.map_map]
    exact hkinds
  · cases withVocabularies with
    | false => rfl
    | true =>
      obtain ⟨vocabulary, hvocabulary, hlt⟩ := (h rfl).decoder
      refine ⟨vocabulary, Decoder.Draft.vocabulary_eq_ok_iff.2 ?_, hvocabulary⟩
      rw [Decoder.draft, hvocabulary]
      exact ⟨rfl, congrArg some (UInt64.toNat_ofNat_of_lt' hlt)⟩

/-- Settings that were read with their vocabularies can be stored, and settings that were read
without them have none. -/
theorem of_ofValue {withVocabularies : Bool} {value : Value} {config : ModelConfig}
    (h : ofValue withVocabularies value = .ok config) :
    repeatedKind? [] (config.encoders.map (·.kind)) = none ∧
      (withVocabularies = true → config.HasVocabularies) ∧
      config.keeping withVocabularies = config := by
  obtain ⟨outline, encoders, vocabulary, -, hencoders, hkinds, hvocabulary, rfl⟩ :=
    ofValue_eq_ok_iff.1 h
  obtain ⟨items, -, hitems⟩ := Encoder.listOfValue_eq_ok_iff.1 hencoders
  have hread := Encoder.of_forall₂_ofValue hitems
  have hkept : encoders.map (Encoder.keeping withVocabularies) = encoders :=
    (List.map_congr_left fun encoder hencoder => (hread encoder hencoder).2).trans
      (List.map_id encoders)
  cases withVocabularies with
  | false =>
    obtain rfl : vocabulary = none := hvocabulary
    refine ⟨hkinds, nofun, ?_⟩
    rw [keeping, Outline.complete, hkept]
    rfl
  | true =>
    obtain ⟨own, hown, rfl⟩ := hvocabulary
    refine ⟨hkinds, fun _ => ⟨fun encoder hencoder => (hread encoder hencoder).1 rfl, ?_⟩, ?_⟩
    · exact Vocabulary.isStorable_of_size (Decoder.Draft.vocabulary_eq_ok_iff.1 hown).2
    · rw [keeping, Outline.complete, hkept]
      rfl

/-- Settings that were read without vocabularies have none for the decoder. -/
theorem decoder_of_keeping {config : ModelConfig} (h : config.keeping false = config) :
    config.decoder.vocabulary = none := by
  rw [← h]
  rfl

/-- A word can hold the number of places of a decoder that was read. -/
theorem size_decoder_lt {withVocabularies : Bool} {config : ModelConfig}
    (h : withVocabularies = true → config.HasVocabularies)
    (hkept : config.keeping withVocabularies = config) :
    ∀ vocabulary ∈ config.decoder.vocabulary, vocabulary.size < Word.bound64 := by
  intro vocabulary hvocabulary
  cases withVocabularies with
  | false =>
    rw [decoder_of_keeping hkept] at hvocabulary
    cases hvocabulary
  | true =>
    obtain ⟨own, hown, hlt⟩ := (h rfl).decoder
    rw [hown] at hvocabulary
    cases hvocabulary
    exact hlt

/-- Settings that were read are read again from their stored form. -/
theorem ofValue_toValue_of_ofValue {withVocabularies : Bool} {value : Value}
    {config : ModelConfig} (h : ofValue withVocabularies value = .ok config) :
    ofValue withVocabularies config.toValue = .ok config := by
  obtain ⟨hkinds, hvocabularies, hkeeping⟩ := of_ofValue h
  rw [ofValue_toValue hkinds hvocabularies, hkeeping]

end ModelConfig

end EvidenceSynthesis
