import HomeScript.Number.Nearest

/-! # Number literals

The written forms of numbers: a sign, digits with a point among them, and a power of ten. Each
reader takes what belongs to the number from the front of a text and leaves the rest.
-/

namespace HomeScript.Number

/-- The digits at the start of a text, and the rest. -/
def digits (cs : List Char) : List Char × List Char :=
  (cs.takeWhile Char.isDigit, cs.dropWhile Char.isDigit)

/-- The number written by digits before and after the point and by a power of ten. -/
def decimal (negative : Bool) (whole fraction : List Char) (power : Int) : Decimal where
  negative
  units := Nat.ofDigitChars 10 (whole ++ fraction) 0
  exponent := power - fraction.length

def signed (negative : Bool) (n : Nat) : Int :=
  if negative then -n else n

def sign : List Char → Bool × List Char
  | '-' :: rest => (true, rest)
  | '+' :: rest => (false, rest)
  | cs => (false, cs)

/-- A power of ten such as `e+10`, which is zero where none is written. -/
def power? : List Char → Option (Int × List Char)
  | c :: rest =>
    if c = 'e' || c = 'E' then
      let (negative, rest) := sign rest
      match digits rest with
      | ([], _) => none
      | (ds, rest) => some (signed negative (Nat.ofDigitChars 10 ds 0), rest)
    else some (0, c :: rest)
  | [] => some (0, [])

def wholeAndFraction (cs : List Char) : List Char × List Char × List Char :=
  let (whole, rest) := digits cs
  match rest with
  | '.' :: rest => (whole, digits rest)
  | _ => (whole, [], rest)

def lowercase (cs : List Char) : String :=
  String.ofList (cs.map Char.toLower)

/--
The number that a whole text stands for. Digits may be missing on one side of the point, and
infinity and the undefined number have names, in letters of either case.
-/
def read? (text : List Char) : Option Double :=
  let (negative, rest) := sign text
  if ["inf", "infinity"].contains (lowercase rest) then some (Double.infinity negative)
  else if lowercase rest = "nan" then some Double.nan
  else
    let (whole, fraction, rest) := wholeAndFraction rest
    if whole.isEmpty && fraction.isEmpty then none
    else match power? rest with
      | some (power, []) => some (Double.ofDecimal (decimal negative whole fraction power))
      | _ => none

end HomeScript.Number
