/-! # Percent encoding

Bytes that a part of a URL may not hold as they are, those of all characters beyond ASCII among
them, are written as `%` and two hexadecimal digits.
-/

namespace HomeScript.Net.Percent

def isControl (c : Char) : Bool :=
  c < ' ' || '~' < c

def inFragment (c : Char) : Bool :=
  isControl c || " \"<>`".toList.contains c

def inQuery (c : Char) : Bool :=
  isControl c || " \"#<>".toList.contains c

def inSpecialQuery (c : Char) : Bool :=
  inQuery c || c == '\''

def inPath (c : Char) : Bool :=
  inFragment c || "#?\x7b\x7d".toList.contains c

def inUserinfo (c : Char) : Bool :=
  inPath c || "/:;=@[\\]^|".toList.contains c

def hexDigit (n : Nat) : Char :=
  (Nat.digitChar n).toUpper

def encodeByte (b : UInt8) : List Char :=
  ['%', hexDigit (b.toNat / 16), hexDigit (b.toNat % 16)]

/-- Encodes the characters of a set. -/
def encode (isEncoded : Char → Bool) (cs : List Char) : List Char :=
  cs.flatMap fun c =>
    if isEncoded c then (String.utf8EncodeChar c).flatMap encodeByte else [c]

end HomeScript.Net.Percent
