import HomeScript.Number.Literal

/-! # Numbers in machine words

Whole numbers as they are read into words of fixed width. There is no number where the word has no
room for it; none wraps around.
-/

namespace HomeScript.Number

/-- A number in a signed word of 64 bits. -/
def signedWord? (n : Int) : Option Int64 :=
  if Int64.minValue.toInt ≤ n ∧ n ≤ Int64.maxValue.toInt then some (.ofInt n) else none

/-- A signed word as an unsigned one of 32 bits. -/
def unsignedWord? (w : Int64) : Option UInt32 :=
  if 0 ≤ w.toInt ∧ w.toInt < UInt32.size then some (.ofNat w.toInt.toNat) else none

/-- One more digit behind those of a number. -/
def pushDigit (w : Int64) (c : Char) : Option Int64 := do
  let shifted ← signedWord? (10 * w.toInt)
  signedWord? (shifted.toInt + (c.toNat - '0'.toNat : Nat))

def word? : List Char → Option Int64
  | [] => none
  | ds => ds.foldlM pushDigit 0

/-- The number at the start of a text, behind a sign if there is one. -/
def leadingWord? (cs : List Char) : Option Int64 :=
  let (negative, rest) := sign cs
  (word? (digits rest).1).map fun w => if negative then -w else w

end HomeScript.Number
