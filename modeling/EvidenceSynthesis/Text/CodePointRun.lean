/-!
# Runs of code points

A property of characters is given by its table: a list of runs of code points.
A run is an arithmetic progression, so that blocks in which the two cases of a
letter alternate take one entry.
-/

namespace EvidenceSynthesis.Text

/-- The code points `first`, `first + step`, `first + 2 * step`, … up to `last`. -/
structure CodePointRun where
  first : Nat
  last : Nat
  step : Nat
  deriving Repr, DecidableEq

namespace CodePointRun

/-- Whether a code point lies in the run. -/
def contains (run : CodePointRun) (code : Nat) : Bool :=
  run.first ≤ code && code ≤ run.last && (code - run.first) % run.step == 0

/-- Whether some run of the table holds the character. -/
def covers (table : List CodePointRun) (c : Char) : Bool :=
  table.any fun run => run.contains c.toNat

end CodePointRun

end EvidenceSynthesis.Text
