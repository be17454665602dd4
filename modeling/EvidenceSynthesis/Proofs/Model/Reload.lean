import EvidenceSynthesis.Model.Corpus
import EvidenceSynthesis.Proofs.Json.RoundTrip
import EvidenceSynthesis.Proofs.Model.StoredConfig
import EvidenceSynthesis.Proofs.Model.Weights
import EvidenceSynthesis.Proofs.Text.Utf8
import Mathlib

/-!
# Models that are stored and loaded again

A corpus holds the settings that it was built with, to which the vocabularies of the encoders were
added if they were not stored.  Its own settings can be written to a file (`Value.IsWritable`), and
what is read from the file are the settings from before, whether vocabularies were added or not
(`Corpus.ofFile_file`): the corpus that is loaded with them is the same (`Corpus.load_again`).

No vocabulary is ever built for the decoder.  It therefore tells, in the stored form of the settings
of a corpus, whether the vocabularies of the encoders were saved or built
(`Corpus.savesVocabularies_corpusOf`).  Those that were built are passed over when the file is read,
and are built again from the same programs.
-/

namespace EvidenceSynthesis

open Json (Value Members Document)

/-! ### Files of texts -/

theorem Json.Document.ofOctets?_encode (s : String) :
    ofOctets? (Text.Utf8.encode s) = ofText? s := by
  rw [ofOctets?, Text.Utf8.decodeWithHoles_encode, ofText?]

/-- The octets of a text are read as the text. -/
theorem Json.Value.ofOctets?_encode (s : String) : ofOctets? (Text.Utf8.encode s) = ofText? s := by
  rw [ofOctets?, Document.ofOctets?_encode, ofText?]

/-! ### Values that can be written -/

namespace Json.Value

/-- A value that is read from its text wherever arrays and objects may nest so deep. -/
structure IsWritable (depth : Nat) (value : Value) : Prop where
  names : value.HasDistinctNames
  numbers : value.EveryNumber ReadsBack
  nesting : value.nesting ≤ depth

theorem IsWritable.mono {depth deeper : Nat} {value : Value} (h : value.IsWritable depth)
    (hle : depth ≤ deeper) : value.IsWritable deeper :=
  ⟨h.names, h.numbers, h.nesting.trans hle⟩

theorem isWritable_string (depth : Nat) (s : String) : (string s).IsWritable depth :=
  ⟨trivial, trivial, Nat.zero_le _⟩

theorem isWritable_float (depth : Nat) {x : Decimal.Binary64} (h : (float x).ReadsBack) :
    (float x).IsWritable depth :=
  ⟨trivial, h, Nat.zero_le _⟩

theorem isWritable_ofNat (depth : Nat) {n : Nat} (h : n < Word.bound64) :
    (ofNat n).IsWritable depth := by
  have hfits : Numeral.Fits n := ⟨by omega, by exact_mod_cast h⟩
  exact ⟨trivial, readsBack_integer hfits, Nat.zero_le _⟩

theorem isWritable_word (depth : Nat) (n : UInt64) : (ofNat n.toNat).IsWritable depth :=
  isWritable_ofNat depth n.toNat_lt

theorem isWritable_array {depth : Nat} {items : List Value}
    (h : ∀ item ∈ items, item.IsWritable depth) : (array items).IsWritable (depth + 1) where
  names := itemsHaveDistinctNames_iff.2 fun item hitem => (h item hitem).names
  numbers := everyNumberOfItems_iff.2 fun item hitem => (h item hitem).numbers
  nesting := nesting_array_le_iff.2 fun item hitem => (h item hitem).nesting

/-- An object of distinct names can be written one level above its values. -/
theorem isWritable_object {depth : Nat} {members : Members} (hnames : members.names.Nodup)
    (h : ∀ member ∈ members, member.2.IsWritable depth) :
    (object members).IsWritable (depth + 1) where
  names := ⟨hnames, membersHaveDistinctNames_iff.2 fun member hmember => (h member hmember).names⟩
  numbers := everyNumberOfMembers_iff.2 fun member hmember => (h member hmember).numbers
  nesting := nesting_object_le_iff.2 fun member hmember => (h member hmember).nesting

theorem isWritable_ofTexts (depth : Nat) (texts : List String) :
    (ofTexts texts).IsWritable (depth + 1) := by
  refine isWritable_array fun item hitem => ?_
  obtain ⟨s, -, rfl⟩ := List.mem_map.1 hitem
  exact isWritable_string depth s

/-- A value that can be written is read from the file of its text, in whatever style. -/
theorem ofOctets?_written {value : Value} (h : value.IsWritable maxDepth) (style : Style) :
    ofOctets? (Text.Utf8.encode (String.ofList (value.written style 0 []))) = some value := by
  rw [ofOctets?_encode, ofText?_written h.names h.numbers style, if_pos h.nesting]

end Json.Value

/-! ### Settings that can be written -/

open Json.Value (IsWritable isWritable_object isWritable_array isWritable_string isWritable_word
  isWritable_ofNat isWritable_ofTexts isWritable_float)

/-- The indices of a vocabulary can be written. -/
theorem Vocabulary.isWritable_indexMembers {vocabulary : Vocabulary}
    (h : vocabulary.size < Word.bound64) (depth : Nat) :
    (Value.object vocabulary.indexMembers).IsWritable (depth + 1) := by
  refine isWritable_object vocabulary.nodup_names_indexMembers fun member hmember => ?_
  obtain ⟨place, -, hlt, hvalue⟩ := exists_place_of_mem hmember
  rw [hvalue]
  exact isWritable_ofNat depth (Nat.lt_trans hlt h)

/-- An object to which a vocabulary is added can be written. -/
theorem Vocabulary.isWritable_store {vocabulary : Vocabulary} (h : vocabulary.size < Word.bound64)
    {depth : Nat} {members : Members} (hnames : members.names.Nodup)
    (hmembers : ∀ member ∈ members, member.2.IsWritable (depth + 1)) :
    (Value.object (vocabulary.store members)).IsWritable (depth + 2) := by
  rw [store]
  refine isWritable_object (Members.nodup_names_put (Members.nodup_names_put
    (Members.nodup_names_put hnames _ _) _ _) _ _) fun member hmember => ?_
  rcases Members.mem_put hmember with rfl | hmember
  · exact isWritable_ofNat _ h
  rcases Members.mem_put hmember with rfl | hmember
  · exact isWritable_indexMembers h depth
  rcases Members.mem_put hmember with rfl | hmember
  · exact isWritable_ofTexts depth vocabulary.tokens
  · exact hmembers member hmember

/-- What is stored of an encoder can be written. -/
theorem Encoder.isWritable_toValue {encoder : Encoder}
    (h : ∀ vocabulary ∈ encoder.vocabulary, vocabulary.size < Word.bound64) (depth : Nat) :
    encoder.toValue.IsWritable (depth + 2) := by
  obtain ⟨kind, units, tile, maxNum, vocabulary⟩ := encoder
  have hsettings : ∀ member ∈ (⟨kind, units, tile, maxNum, none⟩ : Encoder).members,
      member.2.IsWritable (depth + 1) := by
    simp only [members, List.forall_mem_cons]
    exact ⟨isWritable_string _ _, isWritable_word _ _, isWritable_word _ _, isWritable_word _ _,
      by simp⟩
  have hnames : (Members.names (⟨kind, units, tile, maxNum, none⟩ : Encoder).members).Nodup := by
    simp [members, Members.names, EncoderField.name]
  cases vocabulary with
  | none => exact isWritable_object hnames hsettings
  | some vocabulary => exact Vocabulary.isWritable_store (h vocabulary rfl) hnames hsettings

theorem Decoder.isWritable_toValue {decoder : Decoder}
    (h : ∀ vocabulary ∈ decoder.vocabulary, vocabulary.size < Word.bound64) (depth : Nat) :
    decoder.toValue.IsWritable (depth + 2) := by
  obtain ⟨units, maxAstDepth, vocabulary⟩ := decoder
  have hsettings : ∀ member ∈ [("units", Value.ofNat units.toNat),
      ("max_ast_depth", Value.ofNat maxAstDepth.toNat)], member.2.IsWritable (depth + 1) := by
    simp only [List.forall_mem_cons]
    exact ⟨isWritable_word _ _, isWritable_word _ _, by simp⟩
  have hnames : (Members.names [("units", Value.ofNat units.toNat),
      ("max_ast_depth", Value.ofNat maxAstDepth.toNat)]).Nodup := by
    simp [Members.names]
  cases vocabulary with
  | none => exact isWritable_object hnames hsettings
  | some vocabulary => exact Vocabulary.isWritable_store (h vocabulary rfl) hnames hsettings

namespace ModelConfig

/-- The settings that are no words. -/
def floats (config : ModelConfig) : List Decimal.Binary64 :=
  [config.learningRate, config.alpha, config.beta]

/-- The stored form of settings can be written. -/
theorem isWritable_toValue {config : ModelConfig}
    (hfloats : ∀ x ∈ config.floats, (Value.float x).ReadsBack)
    (hencoders : ∀ encoder ∈ config.encoders, ∀ vocabulary ∈ encoder.vocabulary,
      vocabulary.size < Word.bound64)
    (hdecoder : ∀ vocabulary ∈ config.decoder.vocabulary, vocabulary.size < Word.bound64) :
    config.toValue.IsWritable 4 := by
  simp only [floats, List.forall_mem_cons] at hfloats
  obtain ⟨hlearningRate, halpha, hbeta, -⟩ := hfloats
  have hevidence : (Value.array (config.encoders.map Encoder.toValue)).IsWritable 3 := by
    refine isWritable_array fun item hitem => ?_
    obtain ⟨encoder, hencoder, rfl⟩ := List.mem_map.1 hitem
    exact Encoder.isWritable_toValue (hencoders encoder hencoder) 0
  refine isWritable_object (by simp [Members.names]) ?_
  simp only [List.forall_mem_cons]
  exact ⟨isWritable_word _ _, isWritable_word _ _, isWritable_word _ _,
    isWritable_float _ hlearningRate, isWritable_word _ _, isWritable_float _ halpha,
    isWritable_float _ hbeta, hevidence, Decoder.isWritable_toValue hdecoder 1, by simp⟩

end ModelConfig

/-! ### What is said of vocabularies -/

/-- A vocabulary is mentioned where it was added. -/
theorem Vocabulary.get?_charsKey_store (vocabulary : Vocabulary) (members : Members) :
    (vocabulary.store members).get? charsKey = some (.ofTexts vocabulary.tokens) := by
  rw [store, Members.get?_put_of_ne (by decide), Members.get?_put_of_ne (by decide),
    Members.get?_put_self]

namespace ModelConfig

/-- A stored encoder mentions its tokens exactly if it has a vocabulary. -/
theorem mentionsChars_encoder (encoder : Encoder) :
    mentionsChars encoder.toValue = encoder.vocabulary.isSome := by
  obtain ⟨kind, units, tile, maxNum, vocabulary⟩ := encoder
  cases vocabulary with
  | none => rfl
  | some vocabulary =>
    rw [mentionsChars, Encoder.toValue, Value.member?, Encoder.members,
      Vocabulary.get?_charsKey_store]
    rfl

theorem mentionsChars_decoder (decoder : Decoder) :
    mentionsChars decoder.toValue = decoder.vocabulary.isSome := by
  obtain ⟨units, maxAstDepth, vocabulary⟩ := decoder
  cases vocabulary with
  | none => rfl
  | some vocabulary =>
    rw [mentionsChars, Decoder.toValue, Value.member?, Vocabulary.get?_charsKey_store]
    rfl

/-- The stored form of settings mentions a vocabulary for each part that has one. -/
theorem savesVocabularies_toValue (config : ModelConfig) :
    savesVocabularies config.toValue =
      (!config.encoders.isEmpty && config.encoders.all (·.vocabulary.isSome) &&
        config.decoder.vocabulary.isSome) := by
  have hsaves : savesVocabularies config.toValue =
      (!(config.encoders.map Encoder.toValue).isEmpty &&
        (config.encoders.map Encoder.toValue).all mentionsChars &&
          mentionsChars config.decoder.toValue) := rfl
  have htests : mentionsChars ∘ Encoder.toValue = fun encoder => encoder.vocabulary.isSome :=
    funext mentionsChars_encoder
  rw [hsaves, List.isEmpty_map, List.all_map, htests, mentionsChars_decoder]

/-- The encoders are read from the member that is named after the evidence. -/
theorem evidence_of_give {name : String} {value : Value} {before after : Draft}
    (h : Draft.give name value before = .ok after) :
    after.evidence = if name = "evidence" then some value else before.evidence := by
  unfold Draft.give at h
  grind [map_eq_ok_iff]

/-- The outline of a stored model holds its encoders. -/
theorem evidence_of_read {members : Members} (hnames : members.names.Nodup) {outline : Outline}
    (h : Outline.read (.object members) = .ok outline) :
    members.get? "evidence" = some outline.evidence := by
  simp only [Outline.read, bind_eq_ok_iff, Json.required_eq_ok_iff] at h
  obtain ⟨draft, hdraft, _, -, _, -, _, -, _, -, _, -, _, -, _, -, evidence, hevidence, _, -, h⟩ :=
    h
  cases h
  have hkept := Members.kept_of_foldlM Draft.give Draft.evidence evidence_of_give hnames hdraft
  rw [hevidence] at hkept
  cases hmember : members.get? "evidence" with
  | none =>
    rw [hmember] at hkept
    cases hkept
  | some value =>
    rw [hmember] at hkept
    exact hkept.symm

/-- Settings whose vocabularies are saved have an encoder. -/
theorem encoders_ne_nil {value : Value} (hnames : value.HasDistinctNames)
    (hsaves : savesVocabularies value = true) {withVocabularies : Bool} {config : ModelConfig}
    (h : ofValue withVocabularies value = .ok config) : config.encoders ≠ [] := by
  obtain ⟨outline, encoders, vocabulary, houtline, hencoders, -, -, rfl⟩ := ofValue_eq_ok_iff.1 h
  obtain ⟨items, hevidence, hitems⟩ := Encoder.listOfValue_eq_ok_iff.1 hencoders
  cases value with
  | object members =>
    have hmember := evidence_of_read hnames.1 houtline
    rw [hevidence] at hmember
    rintro (rfl : encoders = [])
    obtain rfl := List.forall₂_nil_right_iff.1 hitems
    simp [savesVocabularies, Value.member?, hmember, Value.items?] at hsaves
  | _ => simp [savesVocabularies, Value.member?] at hsaves

/-- A file is loaded exactly if it is read as a value that gives the model. -/
theorem ofFile_eq_ok_iff {file : Except FileError Text.Octets} {config : ModelConfig} :
    ofFile file = .ok config ↔
      ∃ octets value, file = .ok octets ∧ Value.ofOctets? octets = some value ∧
        ofValue (savesVocabularies value) value = .ok config := by
  cases file with
  | error error => exact iff_of_false nofun fun ⟨_, _, h, _⟩ => nomatch h
  | ok octets =>
    rw [ofFile]
    cases hvalue : Value.ofOctets? octets with
    | none => simp [hvalue]
    | some value => simp [hvalue]

end ModelConfig

/-! ### Memory for vocabularies -/

/-- No axis is longer than a tensor of the shape is large. -/
theorem Shape.le_volume {shape : Shape} (h : ∀ length ∈ shape, 0 < length) {length : Nat}
    (hlength : length ∈ shape) : length ≤ shape.volume := by
  induction shape with
  | nil => cases hlength
  | cons first rest ih =>
    obtain ⟨hfirst, hrest⟩ := List.forall_mem_cons.1 h
    rcases List.mem_cons.1 hlength with rfl | hlength
    · exact Nat.le_mul_of_pos_right _ (volume_pos hrest)
    · exact (ih hrest hlength).trans (Nat.le_mul_of_pos_left _ hfirst)

theorem Shape.le_extent {shape : Shape} {length : Nat} (h : length ∈ shape) :
    length ≤ shape.extent := by
  rcases Nat.eq_zero_or_pos length with rfl | hpos
  · exact Nat.zero_le _
  · refine le_volume (fun _ hmem => by simpa using (List.mem_filter.1 hmem).2) ?_
    exact List.mem_filter.2 ⟨h, by simpa using hpos⟩

/-- A word can hold the number of places of a vocabulary, if there is memory for the matrices of its
encoder. -/
theorem Encoder.size_lt_of_fits {encoder : Encoder} (h : encoder.fits = true) :
    ∀ vocabulary ∈ encoder.vocabulary, vocabulary.size < Word.bound64 := by
  intro vocabulary hvocabulary
  have hwidth : encoder.width = vocabulary.size := by
    rw [width, Option.mem_def.1 hvocabulary]
  rw [fits, Shape.fits, Bool.and_eq_true, decide_eq_true_eq] at h
  calc vocabulary.size ≤ encoder.shape.extent :=
        hwidth ▸ Shape.le_extent (List.mem_cons_of_mem _ List.mem_cons_self)
    _ < Word.bound63 := h.1
    _ < Word.bound64 := by decide

/-! ### Corpora -/

/-- The file in which settings are stored, in a style. -/
def ModelConfig.file (style : Json.Style) (config : ModelConfig) : Text.Octets :=
  Text.Utf8.encode (String.ofList (config.toValue.written style 0 []))

namespace Corpus

/-- A corpus is loaded if both files can be read and there is a corpus of the programs. -/
theorem load_eq_ok_iff {directory : String} {config programs : Except FileError Text.Octets}
    {corpus : Corpus} :
    load directory config programs = .ok corpus ↔
      ∃ settings octets trees, ModelConfig.ofFile config = .ok settings ∧ programs = .ok octets ∧
        CorpusFile.ofOctets? octets = some trees ∧ ofTrees settings trees = .ok corpus := by
  unfold load
  simp only [bind_eq_ok_iff, mapError_eq_ok_iff]
  constructor
  · rintro ⟨settings, hsettings, octets, hoctets, h⟩
    cases htrees : CorpusFile.ofOctets? octets with
    | none =>
      rw [htrees] at h
      cases h
    | some trees =>
      rw [htrees] at h
      exact ⟨settings, octets, trees, hsettings, hoctets, htrees, h⟩
  · rintro ⟨settings, octets, trees, hsettings, hoctets, htrees, h⟩
    refine ⟨settings, hsettings, octets, hoctets, ?_⟩
    rw [htrees]
    exact h

section

variable {config : ModelConfig} {withVocabularies : Bool}

/-- Whether vocabularies are kept or not, it makes no difference that those which were not there
were built. -/
theorem keeping_learned {encoder : Encoder}
    (h : withVocabularies = true → Vocabulary.IsStorable encoder.vocabulary)
    (derived : List Evidence) :
    (learned derived encoder).keeping withVocabularies = encoder.keeping withVocabularies := by
  cases hvocabulary : encoder.vocabulary with
  | some vocabulary => rw [learned, hvocabulary]
  | none =>
    cases withVocabularies with
    | false =>
      rw [learned, hvocabulary]
      rfl
    | true =>
      obtain ⟨vocabulary, hsome, -⟩ := h rfl
      rw [hvocabulary] at hsome
      cases hsome

/-- Learning again changes nothing that a model with vocabularies keeps. -/
theorem keeping_corpusOf (h : withVocabularies = true → config.HasVocabularies)
    (trees : List Tree) :
    (corpusOf config trees).config.keeping withVocabularies = config.keeping withVocabularies := by
  rw [ModelConfig.keeping, ModelConfig.keeping, corpusOf, encodersFor, List.map_map]
  refine congrArg (fun encoders => { config with
    encoders := encoders, decoder := config.decoder.keeping withVocabularies }) ?_
  refine List.map_congr_left fun encoder hencoder => ?_
  exact keeping_learned (fun hwith => (h hwith).encoders encoder hencoder) _

theorem kind_learned (derived : List Evidence) (encoder : Encoder) :
    (learned derived encoder).kind = encoder.kind := by
  unfold learned
  cases encoder.vocabulary <;> rfl

/-- Learning vocabularies leaves the kinds of the encoders. -/
theorem kinds_corpusOf (config : ModelConfig) (trees : List Tree) :
    (corpusOf config trees).config.encoders.map (·.kind) = config.encoders.map (·.kind) := by
  rw [corpusOf, encodersFor, List.map_map]
  exact List.map_congr_left fun encoder _ => kind_learned _ encoder

/-- A corpus has all vocabularies if its settings had them. -/
theorem hasVocabularies_corpusOf {trees : List Tree}
    (hfits : ∀ encoder ∈ encodersFor config trees, encoder.fits = true)
    (h : config.HasVocabularies) : (corpusOf config trees).config.HasVocabularies where
  encoders encoder hencoder := by
    obtain ⟨own, -, hown⟩ := List.mem_map.1 hencoder
    obtain ⟨vocabulary, hvocabulary⟩ := exists_vocabulary_learned (yields trees) own
    rw [hown] at hvocabulary
    exact ⟨vocabulary, hvocabulary, Encoder.size_lt_of_fits (hfits encoder hencoder) _ hvocabulary⟩
  decoder := h.decoder

end

section

variable {value : Value} {config : ModelConfig}

/-- A corpus saves its vocabularies if those of its settings were saved: otherwise there is none for
the decoder. -/
theorem savesVocabularies_corpusOf (hnames : value.HasDistinctNames)
    (h : ModelConfig.ofValue (ModelConfig.savesVocabularies value) value = .ok config)
    (trees : List Tree) :
    ModelConfig.savesVocabularies (corpusOf config trees).config.toValue =
      ModelConfig.savesVocabularies value := by
  obtain ⟨-, hvocabularies, hkept⟩ := ModelConfig.of_ofValue h
  rw [ModelConfig.savesVocabularies_toValue]
  cases hsaves : ModelConfig.savesVocabularies value with
  | false =>
    rw [hsaves] at hkept
    have hdecoder : config.decoder.vocabulary = none := ModelConfig.decoder_of_keeping hkept
    simp only [corpusOf, hdecoder]
    exact Bool.and_false _
  | true =>
    obtain ⟨vocabulary, hdecoder, -⟩ := (hvocabularies hsaves).decoder
    have hencoders : encodersFor config trees ≠ [] := by
      rw [encodersFor, ne_eq, List.map_eq_nil_iff]
      exact ModelConfig.encoders_ne_nil hnames hsaves h
    have hall : (encodersFor config trees).all (·.vocabulary.isSome) = true := by
      refine List.all_eq_true.2 fun encoder hencoder => ?_
      obtain ⟨own, -, rfl⟩ := List.mem_map.1 hencoder
      obtain ⟨_, hvocabulary⟩ := exists_vocabulary_learned (yields trees) own
      rw [hvocabulary]
      rfl
    simp only [corpusOf, hdecoder, hall, List.isEmpty_eq_false_iff.2 hencoders]
    rfl

/-- The settings of a corpus, stored and read again, are those with which it was built. -/
theorem ofFile_file {original : Except FileError Text.Octets}
    (h : ModelConfig.ofFile original = .ok config) {trees : List Tree} {corpus : Corpus}
    (hcorpus : ofTrees config trees = .ok corpus)
    (hfloats : ∀ x ∈ corpus.config.floats, (Value.float x).ReadsBack) (style : Json.Style) :
    ModelConfig.ofFile (.ok (corpus.config.file style)) = .ok config := by
  obtain ⟨octets, value, -, hvalue, hread⟩ := ModelConfig.ofFile_eq_ok_iff.1 h
  obtain ⟨-, hfits, rfl⟩ := ofTrees_eq_ok_iff.1 hcorpus
  obtain ⟨hkinds, hvocabularies, hkept⟩ := ModelConfig.of_ofValue hread
  obtain ⟨document, -, hdocument⟩ := Option.bind_eq_some_iff.1 hvalue
  have hnames : value.HasDistinctNames := Document.hasDistinctNames_of_value? hdocument
  have hdecoder := ModelConfig.size_decoder_lt hvocabularies hkept
  have hwritable : (corpusOf config trees).config.toValue.IsWritable 4 :=
    ModelConfig.isWritable_toValue hfloats
      (fun encoder hencoder => Encoder.size_lt_of_fits (hfits encoder hencoder)) hdecoder
  refine ModelConfig.ofFile_eq_ok_iff.2 ⟨_, _, rfl,
    Value.ofOctets?_written (hwritable.mono (by decide)) style, ?_⟩
  rw [savesVocabularies_corpusOf hnames hread, ModelConfig.ofValue_toValue,
    keeping_corpusOf hvocabularies, hkept]
  · rw [kinds_corpusOf]
    exact hkinds
  · exact fun hsaves => hasVocabularies_corpusOf hfits (hvocabularies hsaves)

end

/-- What is stored is read again.

Settings that were read, with or without vocabularies, are stored in a form that is read as the same
settings.

And a corpus that was loaded stores its settings in a file, of any style, with which the same corpus
is loaded again from the same programs: with the same settings and vocabularies, the same weights
for any evidence, and the same draws.  So it is if the three settings that are no words are read
back from their texts. -/
theorem load_again :
    (∀ withVocabularies value config,
      ModelConfig.ofValue withVocabularies value = .ok config →
        ModelConfig.ofValue withVocabularies config.toValue = .ok config) ∧
    ∀ directory config programs corpus, load directory config programs = .ok corpus →
      (∀ x ∈ corpus.config.floats, (Value.float x).ReadsBack) →
        ∀ style, load directory (.ok (corpus.config.file style)) programs = .ok corpus := by
  refine ⟨fun _ _ _ h => ModelConfig.ofValue_toValue_of_ofValue h, ?_⟩
  intro directory config programs corpus h hfloats style
  obtain ⟨settings, octets, trees, hsettings, hoctets, htrees, hcorpus⟩ := load_eq_ok_iff.1 h
  exact load_eq_ok_iff.2 ⟨settings, octets, trees,
    ofFile_file hsettings hcorpus hfloats style, hoctets, htrees, hcorpus⟩

end Corpus

/-! ### A vocabulary that lists a token twice -/

theorem Json.Value.readsBack_zero : (float (.zero false)).ReadsBack := by
  have hinteger : Json.Numeral.integer? ⟨false, ['0'], some ['0'], none⟩ = none := rfl
  have hfloat : Json.Numeral.float? ⟨false, ['0'], some ['0'], none⟩ = some (.zero false) := by
    decide +kernel
  refine ⟨⟨false, ['0'], some ['0'], none⟩, by cbv, ?_⟩
  rw [Json.Numeral.value?, hinteger, hfloat]
  rfl

namespace ModelConfig

/-- Settings with an encoder whose vocabulary lists a token twice. -/
def repeating : ModelConfig where
  latentSize := 8
  batchSize := 1
  numEpochs := 1
  learningRate := .zero false
  printStep := 1
  alpha := .zero false
  beta := .zero false
  encoders := [⟨.types, 8, 1, 2, some ⟨["a", "a"]⟩⟩]
  decoder := ⟨16, 8, some ⟨["b"]⟩⟩

/-- Another form of the settings: integers for the numbers, and no map from tokens to numbers. -/
def repeatingValue : Value :=
  .object
    [("latent_size", .ofNat 8), ("batch_size", .ofNat 1), ("num_epochs", .ofNat 1),
     ("learning_rate", .ofNat 0), ("print_step", .ofNat 1), ("alpha", .ofNat 0),
     ("beta", .ofNat 0),
     ("evidence", .array [.object
       [("name", .string "types"), ("units", .ofNat 8), ("tile", .ofNat 1),
        ("max_num", .ofNat 2), ("chars", .ofTexts ["a", "a"]), ("vocab_size", .ofNat 2)]]),
     ("decoder", .object
       [("units", .ofNat 16), ("max_ast_depth", .ofNat 8), ("chars", .ofTexts ["b"]),
        ("vocab_size", .ofNat 1)])]

theorem isWritable_repeatingValue : repeatingValue.IsWritable 4 := by
  have hword : ∀ depth n, n < 17 → (Value.ofNat n).IsWritable depth := fun depth n hn =>
    isWritable_ofNat depth (Nat.lt_trans hn (by decide))
  refine isWritable_object (by simp [Members.names]) ?_
  simp only [List.forall_mem_cons, List.not_mem_nil, false_imp_iff, implies_true, and_true]
  refine ⟨hword _ 8 (by decide), hword _ 1 (by decide), hword _ 1 (by decide),
    hword _ 0 (by decide), hword _ 1 (by decide), hword _ 0 (by decide), hword _ 0 (by decide),
    isWritable_array ?_, isWritable_object (by simp [Members.names]) ?_⟩
  · simp only [List.forall_mem_cons, List.not_mem_nil, false_imp_iff, implies_true, and_true]
    refine isWritable_object (by simp [Members.names]) ?_
    simp only [List.forall_mem_cons, List.not_mem_nil, false_imp_iff, implies_true, and_true]
    exact ⟨isWritable_string _ _, hword _ 8 (by decide), hword _ 1 (by decide),
      hword _ 2 (by decide), isWritable_ofTexts _ _, hword _ 2 (by decide)⟩
  · simp only [List.forall_mem_cons, List.not_mem_nil, false_imp_iff, implies_true, and_true]
    exact ⟨hword _ 16 (by decide), hword _ 8 (by decide), isWritable_ofTexts _ _,
      hword _ 1 (by decide)⟩

end ModelConfig

namespace Corpus

open ModelConfig (repeating repeatingValue)

/-- A model whose encoder lists a token twice is loaded again with the same vocabulary. -/
theorem load_again_repeating :
    let file : Except FileError Text.Octets := .ok (Text.Utf8.encode repeatingValue.compact)
    let programs : Except FileError Text.Octets := .ok (Text.Utf8.encode "[[[\x7b\x7d]]]")
    ∃ corpus, load "model" file programs = .ok corpus ∧ corpus.config = repeating ∧
      (∀ x ∈ corpus.config.floats, (Value.float x).ReadsBack) ∧
      load "model" (.ok (corpus.config.file .compact)) programs = .ok corpus ∧
      ModelConfig.ofValue true repeatingValue = .ok repeating ∧
      ModelConfig.ofValue true repeating.toValue = .ok repeating := by
  intro file programs
  let tree : Tree := ⟨[], by simp [Value.HasDistinctNames, Value.MembersHaveDistinctNames,
    Members.names]⟩
  have hvalue : ModelConfig.ofValue true repeatingValue = .ok repeating := by cbv
  have hsaves : ModelConfig.savesVocabularies repeatingValue = true := by cbv
  have hsettings : ModelConfig.ofFile file = .ok repeating :=
    ModelConfig.ofFile_eq_ok_iff.2 ⟨_, repeatingValue, rfl, Value.ofOctets?_written
      (ModelConfig.isWritable_repeatingValue.mono (by decide)) .compact, hsaves ▸ hvalue⟩
  have htrees : CorpusFile.ofOctets? (Text.Utf8.encode "[[[\x7b\x7d]]]") = some [tree] := by cbv
  have hcorpus : ofTrees repeating [tree] = .ok (corpusOf repeating [tree]) := by cbv
  have hload : load "model" file programs = .ok (corpusOf repeating [tree]) :=
    load_eq_ok_iff.2 ⟨repeating, _, [tree], hsettings, rfl, htrees, hcorpus⟩
  have hfloats : ∀ x ∈ repeating.floats, (Value.float x).ReadsBack := by
    simp [repeating, ModelConfig.floats, Value.readsBack_zero]
  exact ⟨corpusOf repeating [tree], hload, rfl, hfloats,
    load_again.2 _ _ _ _ hload hfloats .compact, hvalue, load_again.1 _ _ _ hvalue⟩

end Corpus

end EvidenceSynthesis
