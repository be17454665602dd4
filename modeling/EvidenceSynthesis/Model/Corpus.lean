import EvidenceSynthesis.Evidence.Basic
import EvidenceSynthesis.Files.Path
import EvidenceSynthesis.Model.Config
import EvidenceSynthesis.Model.CorpusFile
import EvidenceSynthesis.Random.Choice
import EvidenceSynthesis.Search.Predictor

/-!
# Drawing from a corpus

A corpus of programs serves as a model: a draw picks one of its programs.  The more a
program overlaps with the evidence, the heavier it weighs: with `o` tokens in common,
counted over the encoders, its weight is `(1 + o) ^ 2`.  The tokens are counted with signed
words of 32 bits, and the weight is a binary64 number.  A program that is deeper than the
decoder allows comes back as an inconsistent draw.

A session remembers the weights of the evidence for which it drew last.
-/

namespace EvidenceSynthesis

open Decimal (Binary64)

/-- A program of a corpus. -/
structure CorpusProgram where
  tree : Tree
  calls : List String
  depth : Nat
  /-- For each encoder, how often each of its columns is hit. -/
  presence : List (List Nat)

/-- Programs to draw from. -/
structure Corpus where
  config : ModelConfig
  programs : List CorpusProgram

/-- A way to pick a position of a list of weights; the state of the choice is of type
`ρ`. -/
structure IndexSource (ρ : Type) where
  choose : List Binary64 → ρ → Nat × ρ

namespace Corpus

/-! ### Building -/

/-- The encoder with a vocabulary: its own one, or else that of the tokens which the
programs yield. -/
def learned (derived : List Evidence) (encoder : Encoder) : Encoder :=
  match encoder.vocabulary with
  | some _ => encoder
  | none => encoder.learn (derived.map fun tokens => (tokens.get encoder.kind).toList)

/-- For each encoder, how often each of its columns is hit by tokens. -/
def presences (encoders : List Encoder) (tokens : Evidence) : List (List Nat) :=
  encoders.map fun encoder => encoder.presence (tokens.get encoder.kind).toList

/-- A tree as a program of a corpus. -/
def programOfTree (encoders : List Encoder) (tree : Tree) : CorpusProgram :=
  let calls := tree.calls
  ⟨tree, calls, tree.depth, presences encoders (.ofCalls calls)⟩

/-- The corpus of trees.  The work is broken off if there is no memory for the matrices of
an encoder. -/
def ofTrees (config : ModelConfig) (trees : List Tree) : Except Interruption Corpus :=
  if trees.isEmpty then
    .error (.failed (.artifact .noPrograms))
  else
    let derived := trees.map fun tree => Evidence.ofCalls (tree.calls)
    let encoders := config.encoders.map (learned derived)
    if encoders.all Encoder.fits then
      .ok ⟨{ config with encoders := encoders }, trees.map (programOfTree encoders)⟩
    else
      .error .crashed

/-- The file of the settings, within the directory of a model. -/
def configName : String := "config.json"

/-- The file of the programs, within the directory of a model. -/
def programsName : String := "corpus.json"

/-- The corpus in a directory, given what reading its two files gave. -/
def load (directory : String) (config programs : Except FileError Text.Octets) :
    Except Interruption Corpus := do
  let configPath := FilePath.within directory configName
  let programsPath := FilePath.within directory programsName
  let config ← (ModelConfig.ofFile config).mapError fun error =>
    .failed (.artifact (.unusable configPath error.message))
  let octets ← programs.mapError fun error =>
    .failed (.artifact (.unusable programsPath error.message))
  match CorpusFile.ofOctets? octets with
  | some trees => ofTrees config trees
  | none => throw (.failed .notJson)

/-- The number of programs. -/
def size (corpus : Corpus) : Nat :=
  corpus.programs.length

/-- Whether there is no program. -/
def isEmpty (corpus : Corpus) : Bool :=
  corpus.programs.isEmpty

/-! ### Weights -/

/-- The sum of the products of two lists of numbers.  The numbers are taken as words, and so are
the products and the sum. -/
def dot : List Nat → List Nat → Int32
  | x :: xs, y :: ys => .ofNat x * .ofNat y + dot xs ys
  | _, _ => 0

/-- The overlap of what is requested with what is present, over all encoders. -/
def overlap : List (List Nat) → List (List Nat) → Int32
  | requested :: others, present :: rest => dot requested present + overlap others rest
  | _, _ => 0

/-- The square of one more than a word, where the sum and the product are rounded; none if it
is beyond the format, which no square of a word is. -/
def squareAbove? (o : Int32) : Option Binary64 := do
  let base ← Binary64.one.add? (← Binary64.ofInt? o.toInt)
  base.mul? base

/-- The weight of an overlap. -/
def weightOfOverlap (o : Int32) : Binary64 :=
  (squareAbove? o).getD (.zero false)

/-- The weight of each program for evidence. -/
def weigh (corpus : Corpus) (evidence : Evidence) : List Binary64 :=
  let requested := presences corpus.config.encoders evidence
  corpus.programs.map fun program => weightOfOverlap (overlap requested program.presence)

/-- The weights as integers, which they all are. -/
def weights (corpus : Corpus) (evidence : Evidence) : List Nat :=
  (corpus.weigh evidence).map Binary64.wholePart

/-- Why nothing can be drawn with weights. -/
def weightsFault? (weights : List Binary64) : Option String :=
  if weights.isEmpty then some "No weights provided in distribution"
  else if weights.any fun weight => weight.negative && !weight.isZero then
    some "A weight is invalid in distribution"
  else if weights.all Binary64.isZero then some "All weights are zero in distribution"
  else none

/-! ### Sessions -/

/-- The state of the choice, and the weights of the evidence that came last. -/
structure Session (ρ : Type) where
  source : ρ
  recent : Option (Evidence × List Binary64)

/-- The state in which nothing was drawn yet. -/
def Session.start {ρ : Type} (source : ρ) : Session ρ := ⟨source, none⟩

/-- The remembered weights, if they belong to the evidence. -/
def Session.recall? {ρ : Type} (session : Session ρ) (evidence : Evidence) :
    Option (List Binary64) :=
  match session.recent with
  | some (last, weights) => if last = evidence then some weights else none
  | none => none

/-- The weights for evidence, or why nothing can be drawn with them. -/
def usableWeights (corpus : Corpus) (evidence : Evidence) :
    Except PredictorError (List Binary64) :=
  let weights := corpus.weigh evidence
  match weightsFault? weights with
  | some fault => .error (.inference s!"invalid sampling weights: {fault}")
  | none => .ok weights

/-- What comes of picking a program. -/
def drawOf (corpus : Corpus) (index : Nat) : Draw :=
  match corpus.programs[index]? with
  | none => .crashed
  | some program =>
    let limit := corpus.config.decoder.maxAstDepth.toNat
    if limit < program.depth then
      .inconsistent s!"AST depth {program.depth} exceeds max_ast_depth {limit}"
    else
      .sampled program.tree program.calls

/-- Draws a program with given weights. -/
def drawWith {ρ : Type} (corpus : Corpus) (choice : IndexSource ρ) (evidence : Evidence)
    (weights : List Binary64) (source : ρ) : Draw × Session ρ :=
  let (index, source) := choice.choose weights source
  (corpus.drawOf index, ⟨source, some (evidence, weights)⟩)

/-- The corpus as a predictor, where `choice` picks the programs. -/
def predictor {ρ : Type} (corpus : Corpus) (choice : IndexSource ρ) : Predictor (Session ρ) where
  draw evidence session :=
    match session.recall? evidence with
    | some weights => corpus.drawWith choice evidence weights session.source
    | none =>
      match corpus.usableWeights evidence with
      | .ok weights => corpus.drawWith choice evidence weights session.source
      | .error error => (.failed error, session)

/-- Positions that are chosen with random words, in proportion to the weights. -/
def weightedChoice : IndexSource Random.Stream := ⟨Random.Stream.position⟩

/-- There is one weight for each program. -/
@[simp] theorem length_weigh (corpus : Corpus) (evidence : Evidence) :
    (corpus.weigh evidence).length = corpus.size := by
  simp [weigh, size]

end Corpus

end EvidenceSynthesis
