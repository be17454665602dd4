/-!
# Bounds of words

How many words there are of each size.  The bounds are plain numerals, so that they are
evaluated without arithmetic.
-/

namespace EvidenceSynthesis.Word

/-- The number of octets. -/
def bound8 : Nat := 0x100

/-- The number of words of 16 bits. -/
def bound16 : Nat := 0x10000

/-- The number of words of 24 bits. -/
def bound24 : Nat := 0x1000000

/-- The number of words of 32 bits of which the highest is zero. -/
def bound31 : Nat := 0x80000000

/-- The number of words of 32 bits. -/
def bound32 : Nat := 0x100000000

/-- The number of words of 64 bits of which the highest is zero. -/
def bound63 : Nat := 0x8000000000000000

/-- The number of words of 64 bits. -/
def bound64 : Nat := 0x10000000000000000

end EvidenceSynthesis.Word
