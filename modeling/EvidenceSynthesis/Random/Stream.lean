/-!
# Random words

The stream of words that a seed gives: a seed is expanded to a key of eight words, and
the key is run through twelve rounds of the ChaCha permutation once for each block of
sixteen words, with the number of the block in the state.
-/

namespace EvidenceSynthesis.Random

/-! ### The permutation -/

/-- A row of the state: four words. -/
structure Row where
  a : UInt32
  b : UInt32
  c : UInt32
  d : UInt32
  deriving Repr, DecidableEq

namespace Row

/-- Combines two rows word by word. -/
def zip (f : UInt32 → UInt32 → UInt32) (x y : Row) : Row :=
  ⟨f x.a y.a, f x.b y.b, f x.c y.c, f x.d y.d⟩

/-- A word with its bits moved up by `n` places around its ends. -/
def rotateWord (n : UInt32) (w : UInt32) : UInt32 :=
  (w <<< n) ||| (w >>> (32 - n))

/-- Each word with its bits moved up by `n` places. -/
def rotate (n : UInt32) (x : Row) : Row :=
  ⟨rotateWord n x.a, rotateWord n x.b, rotateWord n x.c, rotateWord n x.d⟩

/-- The words moved by one place to the front. -/
def turn (x : Row) : Row := ⟨x.b, x.c, x.d, x.a⟩

/-- The words in order. -/
def words (x : Row) : List UInt32 := [x.a, x.b, x.c, x.d]

end Row

/-- The state of the permutation: four rows. -/
structure State where
  a : Row
  b : Row
  c : Row
  d : Row
  deriving Repr, DecidableEq

namespace State

/-- One round on the four columns at once. -/
def columnRound (s : State) : State :=
  let a := s.a.zip (· + ·) s.b
  let d := (s.d.zip (· ^^^ ·) a).rotate 16
  let c := s.c.zip (· + ·) d
  let b := (s.b.zip (· ^^^ ·) c).rotate 12
  let a := a.zip (· + ·) b
  let d := (d.zip (· ^^^ ·) a).rotate 8
  let c := c.zip (· + ·) d
  let b := (b.zip (· ^^^ ·) c).rotate 7
  ⟨a, b, c, d⟩

/-- Turns the diagonals into columns. -/
def slant (s : State) : State :=
  ⟨s.a, s.b.turn, s.c.turn.turn, s.d.turn.turn.turn⟩

/-- Turns the columns back into diagonals. -/
def unslant (s : State) : State :=
  ⟨s.a, s.b.turn.turn.turn, s.c.turn.turn, s.d.turn⟩

/-- One round on the columns and one on the diagonals. -/
def doubleRound (s : State) : State :=
  s.columnRound.slant.columnRound.unslant

/-- Combines two states word by word. -/
def zip (f : UInt32 → UInt32 → UInt32) (s t : State) : State :=
  ⟨s.a.zip f t.a, s.b.zip f t.b, s.c.zip f t.c, s.d.zip f t.d⟩

/-- The words in order. -/
def words (s : State) : List UInt32 :=
  s.a.words ++ s.b.words ++ s.c.words ++ s.d.words

/-- The state after twelve rounds, added to the state before them. -/
def mix (s : State) : State :=
  s.zip (· + ·)
    s.doubleRound.doubleRound.doubleRound.doubleRound.doubleRound.doubleRound

end State

/-! ### Streams -/

/-- A key of eight words. -/
structure Key where
  first : Row
  second : Row
  deriving Repr, DecidableEq

/-- The constant first row of every state. -/
def constantRow : Row := ⟨0x61707865, 0x3320646e, 0x79622d32, 0x6b206574⟩

/-- The words of the block with a given number. -/
def Key.block (key : Key) (number : UInt64) : List UInt32 :=
  (State.mix ⟨constantRow, key.first, key.second,
    ⟨number.toUInt32, (number >>> 32).toUInt32, 0, 0⟩⟩).words

/-- The words of a key from some place on: those that are left of a block, and the
number of the next block. -/
structure Stream where
  key : Key
  next : UInt64
  pending : List UInt32
  deriving Repr, DecidableEq

namespace Stream

/-- One step of the expansion of a seed. -/
def stepSeed (seed : UInt64) : UInt64 :=
  seed * 6364136223846793005 + 11634580027462260723

/-- The word of a key that belongs to a step of the expansion. -/
def seedWord (seed : UInt64) : UInt32 :=
  let mixed := (((seed >>> 18) ^^^ seed) >>> 27).toUInt32
  let turn := (seed >>> 59).toUInt32
  (mixed >>> turn) ||| (mixed <<< ((32 - turn) % 32))

/-- Four words of a key, and the seed after them. -/
def seedRow (seed : UInt64) : Row × UInt64 :=
  let s₁ := stepSeed seed
  let s₂ := stepSeed s₁
  let s₃ := stepSeed s₂
  let s₄ := stepSeed s₃
  (⟨seedWord s₁, seedWord s₂, seedWord s₃, seedWord s₄⟩, s₄)

/-- The stream of a seed. -/
def ofSeed (seed : UInt64) : Stream :=
  let (first, seed) := seedRow seed
  let (second, _) := seedRow seed
  ⟨⟨first, second⟩, 0, []⟩

/-- The next word. -/
def word32 (stream : Stream) : UInt32 × Stream :=
  match stream.pending with
  | word :: pending => (word, { stream with pending })
  | [] =>
    match stream.key.block stream.next with
    | word :: pending => (word, { stream with next := stream.next + 1, pending })
    | [] => (0, stream)

/-- The next two words as one, the lower half first. -/
def word64 (stream : Stream) : UInt64 × Stream :=
  let (low, stream) := stream.word32
  let (high, stream) := stream.word32
  (low.toUInt64 ||| (high.toUInt64 <<< 32), stream)

end Stream

end EvidenceSynthesis.Random
