/-! # Hexadecimal digits -/

namespace HomeScript.Text

/-- The value of a digit, whose letter may be of either case. -/
def hexDigit? (c : Char) : Option Nat :=
  if c.isDigit then some (c.toNat - '0'.toNat)
  else if 'a' ≤ c && c ≤ 'f' then some (c.toNat - 'a'.toNat + 10)
  else if 'A' ≤ c && c ≤ 'F' then some (c.toNat - 'A'.toNat + 10)
  else none

/-- The number written by digits, the most significant one first. -/
def ofHexDigits (ds : List Nat) : Nat :=
  ds.foldl (fun n d => 16 * n + d) 0

def hex? (cs : List Char) : Option Nat :=
  ofHexDigits <$> cs.mapM hexDigit?

end HomeScript.Text
