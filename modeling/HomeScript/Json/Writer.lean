import HomeScript.Json.Value
import HomeScript.Number.Shortest

/-! # Written JSON

The compact written form: no blanks, members in their order, shortest digits.
-/

namespace HomeScript.Json

def escapeChar (c : Char) : List Char :=
  match c with
  | '\"' => ['\\', '\"']
  | '\\' => ['\\', '\\']
  | '\x08' => ['\\', 'b']
  | '\x0c' => ['\\', 'f']
  | '\n' => ['\\', 'n']
  | '\r' => ['\\', 'r']
  | '\t' => ['\\', 't']
  | c =>
    if c < ' ' then
      ['\\', 'u', '0', '0', Nat.digitChar (c.toNat / 16), Nat.digitChar (c.toNat % 16)]
    else [c]

def writeString (s : String) : List Char :=
  '\"' :: s.toList.flatMap escapeChar ++ ['\"']

def writeInt (n : Int) : List Char :=
  if n < 0 then '-' :: Nat.toDigits 10 n.natAbs else Nat.toDigits 10 n.natAbs

/--
Numbers from `0.00001` up to below `10 ^ 16` have a point and at least one digit after it, others a
power of ten. Infinity and the undefined number have no written form.
-/
def writeReal (x : Double) : List Char :=
  if x.isFinite then
    let d := x.shortest .even
    if -4 ≤ d.point && d.point ≤ 16 then
      d.positional ++ (if 0 ≤ d.exponent then ['.', '0'] else [])
    else d.scientific
  else "null".toList

mutual

def write : Json → List Char
  | null | unreadable => "null".toList
  | boolean b => (if b then "true" else "false").toList
  | integer n => writeInt n
  | real x => writeReal x
  | string s => writeString s
  | array elements => '[' :: [','].intercalate (writeEach elements) ++ [']']
  | object members => '\x7b' :: [','].intercalate (writeMembers members) ++ ['\x7d']

def writeEach : List Json → List (List Char)
  | [] => []
  | j :: rest => j.write :: writeEach rest

def writeMembers : List (String × Json) → List (List Char)
  | [] => []
  | (key, j) :: rest => (writeString key ++ ':' :: j.write) :: writeMembers rest

end

def text (j : Json) : String :=
  String.ofList j.write

end HomeScript.Json
