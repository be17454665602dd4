import EvidenceSynthesis.Proofs.Model.Reload
import Mathlib

/-!
# Which vocabularies are read from a file

Settings may be spelled in several ways: a record is an object or the array of its fields, and a
field that may be missing may as well be null.  `ModelConfig.holdsVocabularies` says, in every
spelling, whether there is an encoder and whether each encoder and the decoder are stored with a
vocabulary.  Settings whose vocabularies can be read hold them (`ModelConfig.holds_of_ofValue`).

A file is read with its vocabularies if objects *mention* them (`ModelConfig.savesVocabularies`).
That differs in two cases from what the settings hold: an array mentions nothing, whatever it gives
in its places, and a vocabulary that is null is mentioned though it is not there.  In these cases,
and in no others, a file is not read as it should be (`ModelConfig.ofFile_eq_ofValue_iff`).
-/

namespace EvidenceSynthesis

open Json (Value Members)

namespace Json

/-- Whether a value is null. -/
def Value.isNull : Value → Bool
  | .null => true
  | _ => false

/-- Whether a value is an object. -/
def Value.isObject : Value → Bool
  | .object _ => true
  | _ => false

/-! ### Fields of a record -/

namespace RecordForm

variable {δ α : Type}

/-- The fields that a record gives, with their names: those of its members, or those of the fields
in the order of declaration. -/
def entries (form : RecordForm δ) : Value → Members
  | .object members => members
  | .array items => form.fields.zip items
  | _ => []

/-- The value of a field of a record. -/
def field? (form : RecordForm δ) (name : String) (value : Value) : Option Value :=
  (form.entries value).get? name

/-- Whether a record gives a field a value other than null. -/
def gives (form : RecordForm δ) (name : String) (value : Value) : Bool :=
  (form.field? name value).any fun found => !found.isNull

variable {form : RecordForm δ} {value : Value} {draft : δ}

/-- In either spelling, a record is read entry by entry. -/
theorem giveAll_entries (h : form.read value = .ok draft) :
    form.giveAll (form.entries value) = .ok draft := by
  cases value with
  | object members => exact h
  | array items =>
    obtain ⟨given, hgiven, hrest⟩ := bind_eq_ok_iff.1 h
    obtain ⟨-, hrest⟩ := ite_throw_eq_ok_iff.1 hrest
    obtain ⟨-, hrest⟩ := ite_throw_eq_ok_iff.1 hrest
    cases hrest
    exact hgiven
  | _ => cases h

/-- The entries of a record have distinct names in both of its spellings. -/
theorem nodup_names_entries (hfields : form.fields.Nodup) (hvalue : value.HasDistinctNames) :
    (form.entries value).names.Nodup := by
  cases value with
  | object members => exact hvalue.1
  | array items =>
    have hnames : ((form.fields.zip items).map (·.1)).Sublist form.fields := by
      rw [List.zip_eq_zip_take_min, List.map_fst_zip (by simp)]
      exact List.take_sublist _ _
    exact hfields.sublist hnames
  | _ => exact List.nodup_nil

theorem hasDistinctNames_of_field? {name : String} {found : Value}
    (hvalue : value.HasDistinctNames) (h : form.field? name value = some found) :
    found.HasDistinctNames := by
  have hmem := Members.mem_of_get? h
  cases value with
  | object members => exact Value.membersHaveDistinctNames_iff.1 hvalue.2 _ hmem
  | array items => exact Value.itemsHaveDistinctNames_iff.1 hvalue _ (List.of_mem_zip hmem).2
  | _ => cases hmem

/-- What a draft keeps of one field, in either spelling of the record. -/
theorem kept_of_read (hfields : form.fields.Nodup) (hvalue : value.HasDistinctNames)
    (kept : δ → α) {taken : Value → α} {key : String}
    (hgive : ∀ {name found before after}, form.give name found before = .ok after →
      kept after = if name = key then taken found else kept before)
    (h : form.read value = .ok draft) :
    kept draft = ((form.field? key value).map taken).getD (kept form.blank) :=
  Members.kept_of_foldlM form.give kept hgive (nodup_names_entries hfields hvalue)
    (giveAll_entries h)

/-- What a draft has of a field was taken from the value that the record gives the field. -/
theorem exists_field?_of_read (hfields : form.fields.Nodup) (hvalue : value.HasDistinctNames)
    (kept : δ → Option α) {taken : Value → Option α} {key : String}
    (hgive : ∀ {name found before after}, form.give name found before = .ok after →
      kept after = if name = key then taken found else kept before)
    (hblank : kept form.blank = none) (h : form.read value = .ok draft) {result : α}
    (hresult : kept draft = some result) :
    ∃ found, form.field? key value = some found ∧ taken found = some result := by
  rw [kept_of_read hfields hvalue kept hgive h, hblank] at hresult
  cases hfield : form.field? key value with
  | none =>
    rw [hfield] at hresult
    cases hresult
  | some found =>
    rw [hfield] at hresult
    exact ⟨found, rfl, hresult⟩

end RecordForm

/-- What may be null is read to nothing exactly if it is null. -/
theorem Reader.isSome_of_optional {α : Type} {reader : Reader α} {value : Value} {found : Option α}
    (h : Reader.optional reader value = .ok found) : found.isSome = !value.isNull := by
  cases value with
  | null =>
    cases h
    rfl
  | _ =>
    obtain ⟨a, -, rfl⟩ := map_eq_ok_iff.1 h
    rfl

end Json

open Json (RecordForm)

/-- A draft has something that may be null exactly if the record gives it. -/
theorem Json.RecordForm.isSome_of_read {δ α : Type} {form : RecordForm δ} {value : Value}
    {draft : δ} (hfields : form.fields.Nodup) (hvalue : value.HasDistinctNames)
    (kept : δ → Option α) {key : String}
    (hgive : ∀ {name found before after}, form.give name found before = .ok after →
      (kept after).isSome = if name = key then !found.isNull else (kept before).isSome)
    (hblank : kept form.blank = none) (h : form.read value = .ok draft) :
    (kept draft).isSome = form.gives key value := by
  rw [form.kept_of_read hfields hvalue (fun draft => (kept draft).isSome) hgive h, hblank,
    RecordForm.gives]
  cases form.field? key value <;> rfl

/-- A draft of an encoder has tokens exactly if the record gives some. -/
theorem Encoder.Draft.isSome_chars_of_read {value : Value} {draft : Draft}
    (hvalue : value.HasDistinctNames) (h : form.read value = .ok draft) :
    draft.chars.isSome = form.gives Vocabulary.charsKey value := by
  refine form.isSome_of_read (by decide) hvalue Draft.chars ?_ rfl h
  intro name found before after hgiven
  change give name found before = .ok after at hgiven
  unfold give at hgiven
  grind [map_eq_ok_iff, Json.Reader.isSome_of_optional, EncoderField.name, Vocabulary.charsKey,
    Vocabulary.indexKey, Vocabulary.sizeKey]

/-- A draft of a decoder has tokens exactly if the record gives some. -/
theorem Decoder.Draft.isSome_chars_of_read {value : Value} {draft : Draft}
    (hvalue : value.HasDistinctNames) (h : form.read value = .ok draft) :
    draft.chars.isSome = form.gives Vocabulary.charsKey value := by
  refine form.isSome_of_read (by decide) hvalue Draft.chars ?_ rfl h
  intro name found before after hgiven
  change give name found before = .ok after at hgiven
  unfold give at hgiven
  grind [map_eq_ok_iff, Json.Reader.isSome_of_optional, Vocabulary.charsKey, Vocabulary.sizeKey]

namespace ModelConfig

/-! ### Vocabularies that are stored -/

/-- The stored forms of the encoders. -/
def storedEncoders (value : Value) : List Value :=
  ((Draft.form.field? "evidence" value).bind Value.items?).getD []

/-- The stored form of the decoder. -/
def storedDecoder? (value : Value) : Option Value :=
  Draft.form.field? "decoder" value

/-- The stored forms with which a vocabulary may be stored. -/
def parts (value : Value) : List Value :=
  storedEncoders value ++ (storedDecoder? value).toList

/-- Whether there is an encoder, and each encoder and the decoder are stored with a vocabulary. -/
def holdsVocabularies (value : Value) : Bool :=
  !(storedEncoders value).isEmpty &&
    (storedEncoders value).all (Encoder.Draft.form.gives Vocabulary.charsKey) &&
      (storedDecoder? value).any (Decoder.Draft.form.gives Vocabulary.charsKey)

/-! ### Mentioned and held -/

/-- What mentions tokens is an object that gives a value for them, be it null. -/
theorem mentionsChars_iff {part : Value} :
    mentionsChars part = true ↔ part.isObject = true ∧ part.member? Vocabulary.charsKey ≠ none := by
  rw [mentionsChars, Option.isSome_iff_ne_none]
  cases part <;> simp [Value.member?, Value.isObject]

/-- An object gives tokens exactly if it mentions them with a value other than null. -/
theorem gives_iff {δ : Type} (form : RecordForm δ) {part : Value} (h : part.isObject = true) :
    form.gives Vocabulary.charsKey part = true ↔
      mentionsChars part = true ∧ part.member? Vocabulary.charsKey ≠ some .null := by
  cases part with
  | object members =>
    rw [RecordForm.gives, RecordForm.field?, RecordForm.entries, mentionsChars, Value.member?]
    cases hmember : Members.get? Vocabulary.charsKey members with
    | none => simp
    | some found => cases found <;> simp [Value.isNull]
  | _ => cases h

/-- Vocabularies are held if there are encoders and all of them, with the decoder, give tokens. -/
theorem holdsVocabularies_iff {value : Value} :
    holdsVocabularies value = true ↔
      storedEncoders value ≠ [] ∧
        (∀ entry ∈ storedEncoders value,
          Encoder.Draft.form.gives Vocabulary.charsKey entry = true) ∧
        ∃ decoder, storedDecoder? value = some decoder ∧
          Decoder.Draft.form.gives Vocabulary.charsKey decoder = true := by
  rw [holdsVocabularies, Bool.and_eq_true, Bool.and_eq_true, Bool.not_eq_true',
    List.isEmpty_eq_false_iff, List.all_eq_true, Option.any_eq_true, and_assoc]

/-- Vocabularies are looked for in the members of an object alone. -/
theorem savesVocabularies_iff {value : Value} :
    savesVocabularies value = true ↔
      value.isObject = true ∧ storedEncoders value ≠ [] ∧ (storedDecoder? value).isSome = true ∧
        ∀ part ∈ parts value, mentionsChars part = true := by
  cases value with
  | object members =>
    have hsaves : savesVocabularies (.object members) =
        (!(storedEncoders (.object members)).isEmpty &&
          (storedEncoders (.object members)).all mentionsChars &&
            (storedDecoder? (.object members)).any mentionsChars) := by
      simp only [savesVocabularies, storedEncoders, storedDecoder?, RecordForm.field?,
        RecordForm.entries, Value.member?]
      cases (Members.get? "evidence" members).bind Value.items? <;> rfl
    rw [hsaves, Bool.and_eq_true, Bool.and_eq_true, Bool.not_eq_true', List.isEmpty_eq_false_iff,
      List.all_eq_true, parts]
    cases storedDecoder? (.object members) with
    | none => simp
    | some decoder => simp [Value.isObject, or_imp, forall_and, and_assoc]
  | _ => simp [savesVocabularies, Value.member?, Value.isObject]

theorem mem_parts {value part : Value} :
    part ∈ parts value ↔ part ∈ storedEncoders value ∨ storedDecoder? value = some part := by
  rw [parts, List.mem_append, Option.mem_toList]

/-- What mentions vocabularies is spelled with objects. -/
theorem isObject_of_saves {value : Value} (h : savesVocabularies value = true) :
    value.isObject = true ∧ ∀ part ∈ parts value, part.isObject = true := by
  obtain ⟨hvalue, -, -, hmentions⟩ := savesVocabularies_iff.1 h
  exact ⟨hvalue, fun part hpart => (mentionsChars_iff.1 (hmentions part hpart)).1⟩

/-- Objects mention the vocabularies that they hold. -/
theorem saves_of_holds {value : Value} (h : holdsVocabularies value = true)
    (hvalue : value.isObject = true) (hparts : ∀ part ∈ parts value, part.isObject = true) :
    savesVocabularies value = true := by
  obtain ⟨hne, hencoders, decoder, hdecoder, hgiven⟩ := holdsVocabularies_iff.1 h
  refine savesVocabularies_iff.2 ⟨hvalue, hne, Option.isSome_of_eq_some hdecoder, ?_⟩
  intro part hpart
  have hobject := hparts part hpart
  rcases mem_parts.1 hpart with hencoder | hother
  · exact ((gives_iff _ hobject).1 (hencoders part hencoder)).1
  · obtain rfl : decoder = part := Option.some.inj (hdecoder.symm.trans hother)
    exact ((gives_iff _ hobject).1 hgiven).1

/-- Vocabularies that are mentioned and not null are held. -/
theorem holds_of_saves {value : Value} (h : savesVocabularies value = true)
    (hpresent : ∀ part ∈ parts value, part.member? Vocabulary.charsKey ≠ some .null) :
    holdsVocabularies value = true := by
  obtain ⟨-, hne, hsome, hmentions⟩ := savesVocabularies_iff.1 h
  have hgives : ∀ {δ : Type} (form : RecordForm δ), ∀ part ∈ parts value,
      form.gives Vocabulary.charsKey part = true := by
    intro δ form part hpart
    have hobject := (isObject_of_saves h).2 part hpart
    exact (gives_iff form hobject).2 ⟨hmentions part hpart, hpresent part hpart⟩
  obtain ⟨decoder, hdecoder⟩ := Option.isSome_iff_exists.1 hsome
  refine holdsVocabularies_iff.2 ⟨hne, ?_, decoder, hdecoder, ?_⟩
  · intro entry hentry
    exact hgives _ entry (mem_parts.2 (.inl hentry))
  · exact hgives _ decoder (mem_parts.2 (.inr hdecoder))

/-- A vocabulary that is held is not null. -/
theorem present_of_holds {value : Value} (h : holdsVocabularies value = true)
    (hparts : ∀ part ∈ parts value, part.isObject = true) :
    ∀ part ∈ parts value, part.member? Vocabulary.charsKey ≠ some .null := by
  obtain ⟨-, hencoders, decoder, hdecoder, hgiven⟩ := holdsVocabularies_iff.1 h
  intro part hpart
  have hobject := hparts part hpart
  rcases mem_parts.1 hpart with hencoder | hother
  · exact ((gives_iff _ hobject).1 (hencoders part hencoder)).2
  · obtain rfl : decoder = part := Option.some.inj (hdecoder.symm.trans hother)
    exact ((gives_iff _ hobject).1 hgiven).2

/-- All vocabularies that settings hold are seen, and all that are seen are held: if they hold
vocabularies, they, their encoders and their decoder are objects, and if all vocabularies are
mentioned, none of them is null. -/
structure IsSeen (value : Value) : Prop where
  objects : holdsVocabularies value = true →
    value.isObject = true ∧ ∀ part ∈ parts value, part.isObject = true
  present : savesVocabularies value = true →
    ∀ part ∈ parts value, part.member? Vocabulary.charsKey ≠ some .null

/-- Vocabularies are seen exactly if the test for them says whether they are held. -/
theorem isSeen_iff {value : Value} :
    IsSeen value ↔ savesVocabularies value = holdsVocabularies value := by
  constructor
  · intro h
    rw [Bool.eq_iff_iff]
    constructor
    · exact fun hsaves => holds_of_saves hsaves (h.present hsaves)
    · intro hholds
      obtain ⟨hvalue, hparts⟩ := h.objects hholds
      exact saves_of_holds hholds hvalue hparts
  · intro h
    constructor
    · exact fun hholds => isObject_of_saves (h.trans hholds)
    · intro hsaves
      exact present_of_holds (h.symm.trans hsaves) (isObject_of_saves hsaves).2

/-! ### Reading with vocabularies and without them -/

/-- Settings that can be read at all are not read alike with their vocabularies and without them:
without them there is none for the decoder. -/
theorem ofValue_true_ne_ofValue_false {value : Value} {withVocabularies : Bool}
    {config : ModelConfig} (h : ofValue withVocabularies value = .ok config) :
    ofValue true value ≠ ofValue false value := by
  intro heq
  have hwith : ofValue true value = .ok config := by
    cases withVocabularies with
    | false => exact heq.trans h
    | true => exact h
  have hwithout : ofValue false value = .ok config := heq.symm.trans hwith
  obtain ⟨vocabulary, hvocabulary, -⟩ := ((of_ofValue hwith).2.1 rfl).decoder
  have hnone := decoder_of_keeping (of_ofValue hwithout).2.2
  rw [hvocabulary] at hnone
  cases hnone

/-- The decoder of a draft is the last that was given. -/
theorem decoder_of_give {name : String} {value : Value} {before after : Draft}
    (h : Draft.give name value before = .ok after) :
    after.decoder =
      if name = "decoder" then (Decoder.read value).toOption else before.decoder := by
  unfold Draft.give at h
  grind [map_eq_ok_iff, Except.toOption]

/-- An outline keeps the stored encoders, and reads the stored decoder. -/
theorem stored_of_read {value : Value} {outline : Outline} (hvalue : value.HasDistinctNames)
    (h : Outline.read value = .ok outline) :
    Draft.form.field? "evidence" value = some outline.evidence ∧
      ∃ decoder, storedDecoder? value = some decoder ∧
        Decoder.read decoder = .ok outline.decoder := by
  simp only [Outline.read, bind_eq_ok_iff, Json.required_eq_ok_iff] at h
  obtain ⟨draft, hdraft, _, -, _, -, _, -, _, -, _, -, _, -, _, -, evidence, hevidence, pair, hpair,
    h⟩ := h
  cases h
  obtain ⟨stored, hstored, htaken⟩ := RecordForm.exists_field?_of_read (by decide) hvalue
    Draft.evidence evidence_of_give rfl hdraft hevidence
  obtain ⟨decoder, hdecoder, hread⟩ := RecordForm.exists_field?_of_read (by decide) hvalue
    Draft.decoder decoder_of_give rfl hdraft hpair
  cases htaken
  refine ⟨hstored, decoder, hdecoder, ?_⟩
  cases hresult : Decoder.read decoder with
  | error error =>
    rw [hresult] at hread
    cases hread
  | ok found =>
    rw [hresult] at hread
    cases hread
    rfl

/-- An encoder that is read with its vocabulary is stored with one. -/
theorem gives_of_ofValue_encoder {entry : Value} {encoder : Encoder}
    (hentry : entry.HasDistinctNames) (h : Encoder.ofValue true entry = .ok encoder) :
    Encoder.Draft.form.gives Vocabulary.charsKey entry = true := by
  obtain ⟨draft, name, hdraft, -, -, -, -, -, vocabulary, hvocabulary, -⟩ :=
    Encoder.ofValue_eq_ok_iff.1 h
  rw [← Encoder.Draft.isSome_chars_of_read hentry hdraft,
    (Encoder.Draft.vocabulary_eq_ok_iff.1 hvocabulary).1]
  rfl

/-- A decoder whose vocabulary is read is stored with one. -/
theorem gives_of_read_decoder {stored : Value} {decoder : Decoder} {draft : Decoder.Draft}
    {vocabulary : Vocabulary} (hstored : stored.HasDistinctNames)
    (h : Decoder.read stored = .ok (decoder, draft))
    (hvocabulary : draft.vocabulary = .ok vocabulary) :
    Decoder.Draft.form.gives Vocabulary.charsKey stored = true := by
  simp only [Decoder.read, bind_eq_ok_iff, Json.required_eq_ok_iff] at h
  obtain ⟨_, hdraft, _, -, _, -, h⟩ := h
  cases h
  rw [← Decoder.Draft.isSome_chars_of_read hstored hdraft,
    (Decoder.Draft.vocabulary_eq_ok_iff.1 hvocabulary).1]
  rfl

/-- Settings that are read with their vocabularies hold them, unless there is no encoder. -/
theorem holds_of_ofValue {value : Value} {config : ModelConfig} (hvalue : value.HasDistinctNames)
    (h : ofValue true value = .ok config) (hencoders : config.encoders ≠ []) :
    holdsVocabularies value = true := by
  obtain ⟨outline, encoders, vocabulary, houtline, hlist, -, ⟨own, hown, -⟩, rfl⟩ :=
    ofValue_eq_ok_iff.1 h
  obtain ⟨items, hevidence, hitems⟩ := Encoder.listOfValue_eq_ok_iff.1 hlist
  obtain ⟨hfield, decoder, hdecoder, hread⟩ := stored_of_read hvalue houtline
  have hstored : storedEncoders value = items := by
    rw [storedEncoders, hfield, hevidence]
    rfl
  have hdistinct : ∀ item ∈ items, item.HasDistinctNames := by
    have hevidenceNames := RecordForm.hasDistinctNames_of_field? hvalue hfield
    rw [hevidence] at hevidenceNames
    exact Value.itemsHaveDistinctNames_iff.1 hevidenceNames
  refine holdsVocabularies_iff.2 ⟨?_, ?_, decoder, hdecoder, ?_⟩
  · rintro hnil
    rw [hstored] at hnil
    subst hnil
    exact hencoders (List.forall₂_nil_left_iff.1 hitems)
  · rw [hstored]
    intro item hitem
    obtain ⟨place, hplace, rfl⟩ := List.getElem_of_mem hitem
    have hlt : place < encoders.length := hitems.length_eq ▸ hplace
    exact gives_of_ofValue_encoder (hdistinct _ hitem) (hitems.get hplace hlt)
  · exact gives_of_read_decoder (RecordForm.hasDistinctNames_of_field? hvalue hdecoder) hread hown

/-! ### Files -/

/-- The names in a file that is read are distinct. -/
theorem hasDistinctNames_of_ofOctets? {octets : Text.Octets} {value : Value}
    (h : Value.ofOctets? octets = some value) : value.HasDistinctNames := by
  obtain ⟨document, -, hdocument⟩ := Option.bind_eq_some_iff.1 h
  exact Json.Document.hasDistinctNames_of_value? hdocument

/-- Which vocabularies are read from a file.

Let a file hold some value.  If the vocabularies that the value holds are seen (`IsSeen`), then the
settings are read with their vocabularies if the value holds them, and without them otherwise.  And
if the value can be read as settings at all, be it with vocabularies or without them, then this is
the only case: the result is another one if the value holds vocabularies but is not spelled with
objects alone, and if all vocabularies are mentioned but one of them is null.

What a value holds is what can be read of it: where vocabularies are read with an encoder, it holds
them. -/
theorem ofFile_eq_ofValue_iff {octets : Text.Octets} {value : Value}
    (hvalue : Value.ofOctets? octets = some value) :
    (IsSeen value → ofFile (.ok octets) = ofValue (holdsVocabularies value) value) ∧
    (∀ withVocabularies config, ofValue withVocabularies value = .ok config →
      (ofFile (.ok octets) = ofValue (holdsVocabularies value) value ↔ IsSeen value)) ∧
    ∀ config, ofValue true value = .ok config → config.encoders ≠ [] →
      holdsVocabularies value = true := by
  have hfile : ofFile (.ok octets) = ofValue (savesVocabularies value) value := by
    simp only [ofFile, hvalue]
  have hseen : IsSeen value → ofFile (.ok octets) = ofValue (holdsVocabularies value) value := by
    intro h
    rw [hfile, isSeen_iff.1 h]
  refine ⟨hseen, ?_, fun config => holds_of_ofValue (hasDistinctNames_of_ofOctets? hvalue)⟩
  intro withVocabularies config hread
  refine ⟨fun heq => ?_, hseen⟩
  have hdiffer := ofValue_true_ne_ofValue_false hread
  rw [hfile] at heq
  rw [isSeen_iff]
  cases hsaves : savesVocabularies value <;> cases hholds : holdsVocabularies value
  · rfl
  · rw [hsaves, hholds] at heq
    exact absurd heq.symm hdiffer
  · rw [hsaves, hholds] at heq
    exact absurd heq hdiffer
  · rfl

/-- Settings that are spelled with objects are read from their file with the vocabularies that they
hold. -/
theorem ofFile_eq_ofValue_repeating :
    let file := Text.Utf8.encode repeatingValue.compact
    Value.ofOctets? file = some repeatingValue ∧ IsSeen repeatingValue ∧
      ofValue true repeatingValue = .ok repeating ∧ repeating.encoders ≠ [] ∧
      holdsVocabularies repeatingValue = true ∧
      ofFile (.ok file) = ofValue (holdsVocabularies repeatingValue) repeatingValue := by
  intro file
  have hvalue : Value.ofOctets? file = some repeatingValue :=
    Value.ofOctets?_written (isWritable_repeatingValue.mono (by decide)) .compact
  have hread : ofValue true repeatingValue = .ok repeating := by cbv
  have hsaves : savesVocabularies repeatingValue = true := by cbv
  have hencoders : repeating.encoders ≠ [] := List.cons_ne_nil _ _
  obtain ⟨hresult, -, hheld⟩ := ofFile_eq_ofValue_iff hvalue
  have hholds : holdsVocabularies repeatingValue = true := hheld _ hread hencoders
  have hseen : IsSeen repeatingValue := isSeen_iff.2 (hsaves.trans hholds.symm)
  exact ⟨hvalue, hseen, hread, hencoders, hholds, hresult hseen⟩

/-! ### Vocabularies that are not seen -/

/-- Settings with one encoder, around the stored forms of the encoder and of the decoder. -/
def around (encoder decoder : Value) : Value :=
  .object
    [("latent_size", .ofNat 8), ("batch_size", .ofNat 1), ("num_epochs", .ofNat 1),
     ("learning_rate", .ofNat 0), ("print_step", .ofNat 1), ("alpha", .ofNat 0),
     ("beta", .ofNat 0), ("evidence", .array [encoder]), ("decoder", decoder)]

/-- An encoder that is stored as the array of its fields. -/
def listedEncoder : Value :=
  .array [.string "types", .ofNat 8, .ofNat 1, .ofNat 2, .ofTexts ["a"], .null, .ofNat 1]

/-- An encoder whose vocabulary is null. -/
def nullEncoder : Value :=
  .object [("name", .string "types"), ("units", .ofNat 8), ("tile", .ofNat 1),
    ("max_num", .ofNat 2), ("chars", .null)]

/-- A decoder that is stored with a vocabulary. -/
def vocalDecoder : Value :=
  .object [("units", .ofNat 16), ("max_ast_depth", .ofNat 8), ("chars", .ofTexts ["b"]),
    ("vocab_size", .ofNat 1)]

open Json.Value (IsWritable isWritable_object isWritable_array isWritable_string isWritable_ofNat
  isWritable_ofTexts)

theorem isWritable_small (depth : Nat) {n : Nat} (h : n < 17) : (Value.ofNat n).IsWritable depth :=
  isWritable_ofNat depth (Nat.lt_trans h (by decide))

theorem isWritable_vocalDecoder : vocalDecoder.IsWritable 3 := by
  refine isWritable_object (by simp [Members.names]) ?_
  simp only [List.forall_mem_cons, List.not_mem_nil, false_imp_iff, implies_true, and_true]
  exact ⟨isWritable_small _ (by decide), isWritable_small _ (by decide), isWritable_ofTexts _ _,
    isWritable_small _ (by decide)⟩

theorem isWritable_around {encoder : Value} (h : encoder.IsWritable 2) :
    (around encoder vocalDecoder).IsWritable 4 := by
  have hlist : (Value.array [encoder]).IsWritable 3 := isWritable_array (by simpa using h)
  refine isWritable_object (by simp [Members.names]) ?_
  simp only [List.forall_mem_cons, List.not_mem_nil, false_imp_iff, implies_true, and_true]
  exact ⟨isWritable_small _ (by decide), isWritable_small _ (by decide),
    isWritable_small _ (by decide), isWritable_small _ (by decide), isWritable_small _ (by decide),
    isWritable_small _ (by decide), isWritable_small _ (by decide), hlist, isWritable_vocalDecoder⟩

theorem isWritable_listedEncoder : listedEncoder.IsWritable 2 := by
  refine isWritable_array ?_
  simp only [List.forall_mem_cons, List.not_mem_nil, false_imp_iff, implies_true, and_true]
  exact ⟨isWritable_string _ _, isWritable_small _ (by decide), isWritable_small _ (by decide),
    isWritable_small _ (by decide), isWritable_ofTexts _ _, ⟨trivial, trivial, Nat.zero_le _⟩,
    isWritable_small _ (by decide)⟩

theorem isWritable_nullEncoder : nullEncoder.IsWritable 2 := by
  refine isWritable_object (by simp [Members.names]) ?_
  simp only [List.forall_mem_cons, List.not_mem_nil, false_imp_iff, implies_true, and_true]
  exact ⟨isWritable_string _ _, isWritable_small _ (by decide), isWritable_small _ (by decide),
    isWritable_small _ (by decide), ⟨trivial, trivial, Nat.zero_le _⟩⟩

/-- Settings hold the vocabulary of an encoder that is stored as an array, and can be read with it,
but from their file they are read without it.

Settings with an encoder whose vocabulary is null hold no vocabularies, and can be read without
them, but from their file they are not read at all. -/
theorem ofFile_ne_ofValue :
    let listed := around listedEncoder vocalDecoder
    let nulled := around nullEncoder vocalDecoder
    (Value.ofOctets? (Text.Utf8.encode listed.compact) = some listed ∧
      holdsVocabularies listed = true ∧
      ofValue true listed =
        .ok { repeating with encoders := [⟨.types, 8, 1, 2, some ⟨["a"]⟩⟩] } ∧
      ofFile (.ok (Text.Utf8.encode listed.compact)) = .ok (repeating.keeping false)) ∧
    Value.ofOctets? (Text.Utf8.encode nulled.compact) = some nulled ∧
      holdsVocabularies nulled = false ∧
      ofValue false nulled = .ok (repeating.keeping false) ∧
      ofFile (.ok (Text.Utf8.encode nulled.compact)) =
        .error (.evidence (.invalidField "types" .chars)) := by
  intro listed nulled
  have hlisted : Value.ofOctets? (Text.Utf8.encode listed.compact) = some listed :=
    Value.ofOctets?_written ((isWritable_around isWritable_listedEncoder).mono (by decide)) .compact
  have hnulled : Value.ofOctets? (Text.Utf8.encode nulled.compact) = some nulled :=
    Value.ofOctets?_written ((isWritable_around isWritable_nullEncoder).mono (by decide)) .compact
  have hunseen : savesVocabularies listed = false := by cbv
  have hmentioned : savesVocabularies nulled = true := by cbv
  refine ⟨⟨hlisted, by cbv, by cbv, ?_⟩, hnulled, by cbv, by cbv, ?_⟩
  · simp only [ofFile, hlisted, hunseen]
    cbv
  · simp only [ofFile, hnulled, hmentioned]
    cbv

end ModelConfig

end EvidenceSynthesis
