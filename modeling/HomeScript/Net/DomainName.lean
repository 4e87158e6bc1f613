import HomeScript.Net.Punycode
import HomeScript.Text.Hex

/-! # Domain names

The name in a URL may be percent-encoded and written with any letters. It is folded to lower case,
and labels beyond ASCII are written in Punycode.

The mapping of international names is larger than this. What is left out: letters are folded only
where their lower case is at a fixed distance, and every other letter stays as it is; characters are
not composed into a normal form; and no label is checked, neither one with letters beyond ASCII nor
one that comes in Punycode already.
-/

namespace HomeScript.Net.DomainName

/-- The bytes of a text in which a `%` and two digits stand for one. -/
def decodePercent : List Char → List UInt8
  | '%' :: a :: b :: rest =>
    match Text.hex? [a, b] with
    | some n => UInt8.ofNat n :: decodePercent rest
    | none => '%'.toUInt8 :: decodePercent (a :: b :: rest)
  | c :: rest => String.utf8EncodeChar c ++ decodePercent rest
  | [] => []

/-- Letters of the Latin, Greek and Cyrillic blocks whose lower case is at a fixed distance. -/
def foldCase (c : Char) : Char :=
  let n := c.toNat
  if n < 0x80 then c.toLower
  else if (0xc0 ≤ n && n ≤ 0xde && n ≠ 0xd7) || (0x391 ≤ n && n ≤ 0x3a9) || (0x410 ≤ n && n ≤ 0x42f)
  then Char.ofNat (n + 0x20)
  else if 0x400 ≤ n && n ≤ 0x40f then Char.ofNat (n + 0x50)
  else if 0x100 ≤ n && n ≤ 0x137 && n ≠ 0x130 && n % 2 = 0 then Char.ofNat (n + 1)
  else c

/-- Wide forms stand for ASCII characters, and other full stops for the point. -/
def foldWidth (c : Char) : Char :=
  let n := c.toNat
  if 0xff01 ≤ n && n ≤ 0xff5e then Char.ofNat (n - 0xfee0)
  else if n = 0x3002 || n = 0xff61 then '.'
  else c

/-- Soft hyphens and characters without width are left out. -/
def isIgnored (c : Char) : Bool :=
  [0xad, 0x200b, 0x2060, 0xfeff].contains c.toNat

def fold (cs : List Char) : List Char :=
  (cs.filter (!isIgnored ·)).map fun c => foldCase (foldWidth c)

def isAscii (cs : List Char) : Bool :=
  cs.all fun c => c.toNat < 0x80

def label (cs : List Char) : List Char :=
  if isAscii cs then cs else "xn--".toList ++ Punycode.encode cs

def isForbidden (c : Char) : Bool :=
  c ≤ ' ' || c == '\x7f' || "%#/:<>?@[\\]^|".toList.contains c

/-- The ASCII form of a name, unless a character of it has no place in names. -/
def toAscii? (cs : List Char) : Option (List Char) := do
  let name ← String.fromUTF8? ⟨(decodePercent cs).toArray⟩
  let labels := (List.splitOn '.' (fold name.toList)).map label
  let ascii := ['.'].intercalate labels
  if ascii.any isForbidden then none else some ascii

end HomeScript.Net.DomainName
