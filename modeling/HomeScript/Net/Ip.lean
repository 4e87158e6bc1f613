import HomeScript.Text.Hex

/-! # Internet addresses

Addresses of both versions with their usual written forms: four octets, or eight groups of which
the longest run of zeros is left out.
-/

namespace HomeScript.Net

structure Ipv4 where
  value : UInt32
  deriving DecidableEq

structure Ipv6 where
  groups : Vector UInt16 8
  deriving DecidableEq

namespace Ipv4

def octets (a : Ipv4) : List Nat :=
  let n := a.value.toNat
  [n >>> 24, n >>> 16 % 256, n >>> 8 % 256, n % 256]

def ofOctets (a b c d : Nat) : Ipv4 :=
  ⟨UInt32.ofNat (((a * 256 + b) * 256 + c) * 256 + d)⟩

def text (a : Ipv4) : String :=
  ".".intercalate (a.octets.map Nat.repr)

/-- Up to three digits without a needless zero. -/
def octet? (ds : List Char) : Option Nat :=
  let n := Nat.ofDigitChars 10 ds 0
  if !ds.isEmpty && ds.length ≤ 3 && ds.all Char.isDigit && (ds.length == 1 || ds.head? ≠ some '0')
      && n ≤ 255 then
    some n
  else none

def parse (cs : List Char) : Option Ipv4 :=
  match (cs.splitOn '.').mapM octet? with
  | some [a, b, c, d] => some (ofOctets a b c d)
  | _ => none

end Ipv4

namespace Ipv6

def hexText (n : Nat) : String :=
  String.ofList (Nat.toDigits 16 n)

def groupsText (gs : List UInt16) : String :=
  ":".intercalate (gs.map fun g => hexText g.toNat)

/-- How many zeros follow from a position on. -/
def zerosFrom (gs : List UInt16) (start : Nat) : Nat :=
  ((gs.drop start).takeWhile (· = 0)).length

/-- The first of the longest runs of zeros is left out if it has two of them. -/
def compressed (a : Ipv6) : String :=
  let gs := a.groups.toList
  let runs := (List.range gs.length).map (zerosFrom gs)
  let longest := runs.foldl max 0
  if longest < 2 then groupsText gs
  else
    let start := runs.idxOf longest
    groupsText (gs.take start) ++ "::" ++ groupsText (gs.drop (start + longest))

/-- The address of the other version that this one stands for. -/
def mapped? (a : Ipv6) : Option Ipv4 :=
  match a.groups.toList with
  | [0, 0, 0, 0, 0, 0xffff, high, low] => some ⟨UInt32.ofNat (high.toNat <<< 16 + low.toNat)⟩
  | _ => none

def text (a : Ipv6) : String :=
  match a.mapped? with
  | some v4 => "::ffff:" ++ v4.text
  | none => a.compressed

/-- One to four hexadecimal digits. -/
def group? (cs : List Char) : Option UInt16 :=
  if cs.isEmpty || 4 < cs.length then none else UInt16.ofNat <$> Text.hex? cs

/-- Groups between colons; where allowed, an address of four octets may stand for the last two. -/
def groups? (octetsAllowed : Bool) : List (List Char) → Option (List UInt16)
  | [] => some []
  | [last] =>
    match if octetsAllowed then Ipv4.parse last else none with
    | some a => some [UInt16.ofNat (a.value.toNat >>> 16), UInt16.ofNat a.value.toNat]
    | none => (fun g => [g]) <$> group? last
  | g :: rest => do return (← group? g) :: (← groups? octetsAllowed rest)

def groupsOf? (octetsAllowed : Bool) (cs : List Char) : Option (List UInt16) :=
  if cs.isEmpty then some [] else groups? octetsAllowed (cs.splitOn ':')

/-- The text before and after the first double colon. -/
def splitGap : List Char → Option (List Char × List Char)
  | ':' :: ':' :: rest => some ([], rest)
  | c :: rest => (splitGap rest).map fun (before, after) => (c :: before, after)
  | [] => none

def ofGroups? (gs : List UInt16) : Option Ipv6 :=
  if h : gs.toArray.size = 8 then some ⟨⟨gs.toArray, h⟩⟩ else none

/-- A double colon stands for at least one group of zeros. -/
def parse (cs : List Char) : Option Ipv6 := do
  match splitGap cs with
  | none => ofGroups? (← groupsOf? true cs)
  | some (before, after) =>
    let head ← groupsOf? false before
    let tail ← groupsOf? true after
    if 7 < head.length + tail.length then none
    else ofGroups? (head ++ List.replicate (8 - head.length - tail.length) 0 ++ tail)

end Ipv6
end HomeScript.Net
