/-!
# Numbers in texts

Natural numbers written in a base, and the form in which settings give a word: decimal
digits, with or without a plus in front.
-/

namespace EvidenceSynthesis.Text

/-- The value of a digit in a base of at most sixteen. -/
def digit? (base : Nat) (c : Char) : Option Nat :=
  let value? :=
    if c.isDigit then some (c.toNat - '0'.toNat)
    else if 'a' ≤ c ∧ c ≤ 'f' then some (c.toNat - 'a'.toNat + 10)
    else if 'A' ≤ c ∧ c ≤ 'F' then some (c.toNat - 'A'.toNat + 10)
    else none
  value?.filter (· < base)

/-- The number that one or more digits write in a base. -/
def digits? (base : Nat) (chars : List Char) : Option Nat :=
  if chars.isEmpty then none
  else chars.foldlM (fun n c => (digit? base c).map (base * n + ·)) 0

/-- The number below `bound` that decimal digits write, with or without a plus in
front. -/
def word? (bound : Nat) (chars : List Char) : Option Nat :=
  let digits :=
    match chars with
    | '+' :: rest => rest
    | _ => chars
  (digits? 10 digits).filter (· < bound)

end EvidenceSynthesis.Text
