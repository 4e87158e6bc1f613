import HomeScript.Json.Fault
import HomeScript.Number.Literal
import HomeScript.Text.Hex

/-! # Reading JSON

Each reader takes what it reads from the front of a text and leaves the rest. A text that could
still be continued to a JSON text is truncated, any other bad text is malformed. Arrays and objects
nest 127 deep; what lies deeper is passed over without a value.
-/

namespace HomeScript.Json.Reader

/-- What was taken from the front of a text, and the rest. -/
abbrev Taken (α : Type) := α × List Char

abbrev Front (α : Type) := List Char → Except Fault (Taken α)

def isSpace (c : Char) : Bool :=
  c == ' ' || c == '\t' || c == '\n' || c == '\r'

def skipSpace (cs : List Char) : List Char :=
  cs.dropWhile isSpace

/-- The fault of a text with this rest where something else must come. -/
def unexpected : List Char → Fault
  | [] => .truncated
  | _ => .malformed

def word (j : Json) : List Char → List Char → Except Fault (Taken Json)
  | [], cs => .ok (j, cs)
  | _ :: _, [] => .error .truncated
  | w :: ws, c :: cs => if w = c then word j ws cs else .error .malformed

/-! ## Texts -/

/-- A character of a text, or a UTF-16 unit written by its number. -/
inductive Piece where
  | char (c : Char)
  | unit (n : Nat)

def escape? : Char → Option Char
  | '\"' => some '\"'
  | '\\' => some '\\'
  | '/' => some '/'
  | 'b' => some '\x08'
  | 'f' => some '\x0c'
  | 'n' => some '\n'
  | 'r' => some '\r'
  | 't' => some '\t'
  | _ => none

def pushPiece (p : Piece) : Except Fault (Taken (List Piece)) → Except Fault (Taken (List Piece))
  | .ok (ps, rest) => .ok (p :: ps, rest)
  | .error e => .error e

/-- The pieces of a text up to its closing quote. -/
def pieces : List Char → Except Fault (Taken (List Piece))
  | [] => .error .truncated
  | '\"' :: rest => .ok ([], rest)
  | '\\' :: 'u' :: a :: b :: c :: d :: rest =>
    match Text.hex? [a, b, c, d] with
    | some n => pushPiece (.unit n) (pieces rest)
    | none => .error .malformed
  | '\\' :: 'u' :: rest =>
    .error (if (String.ofList rest).utf8ByteSize < 4 then .truncated else .malformed)
  | '\\' :: c :: rest =>
    match escape? c with
    | some e => pushPiece (.char e) (pieces rest)
    | none => .error .malformed
  | ['\\'] => .error .truncated
  | c :: rest => if c < ' ' then .error .malformed else pushPiece (.char c) (pieces rest)

/-- Two halves of a surrogate pair stand for one character; half a pair stands for none. -/
def join : List Piece → Option (List Char)
  | [] => some []
  | .char c :: rest => (c :: ·) <$> join rest
  | .unit high :: rest =>
    if high < 0xd800 || 0xdfff < high then (Char.ofNat high :: ·) <$> join rest
    else match rest with
      | .unit low :: rest =>
        if high < 0xdc00 && 0xdc00 ≤ low && low ≤ 0xdfff then
          (Char.ofNat (0x10000 + (high - 0xd800) * 0x400 + (low - 0xdc00)) :: ·) <$> join rest
        else none
      | _ => none

/-- A text after its opening quote, or none if it has half a surrogate pair. -/
def string? (cs : List Char) : Except Fault (Taken (Option String)) := do
  let (ps, rest) ← pieces cs
  return ((join ps).map String.ofList, rest)

/-! ## Numbers -/

/-- Digits of which there must be one. -/
def digits (cs : List Char) : Except Fault (Taken (List Char)) :=
  match Number.digits cs with
  | ([], rest) => .error (unexpected rest)
  | found => .ok found

/-- No digit follows a leading zero. -/
def whole : List Char → Except Fault (Taken (List Char))
  | '0' :: rest =>
    match rest with
    | c :: _ => if c.isDigit then .error .malformed else .ok (['0'], rest)
    | [] => .ok (['0'], [])
  | cs => digits cs

def fraction? : List Char → Except Fault (Taken (Option (List Char)))
  | '.' :: rest => do
    let (ds, rest) ← digits rest
    return (some ds, rest)
  | cs => .ok (none, cs)

def power? : List Char → Except Fault (Taken (Option Int))
  | c :: rest =>
    if c = 'e' || c = 'E' then do
      let (negative, rest) := Number.sign rest
      let (ds, rest) ← digits rest
      return (some (Number.signed negative (Nat.ofDigitChars 10 ds 0)), rest)
    else .ok (none, c :: rest)
  | [] => .ok (none, [])

/-- Whole numbers of 64 bits are kept exactly, except for the negative zero. -/
def isExact (negative : Bool) (n : Nat) : Bool :=
  if negative then 0 < n && n ≤ 1 <<< 63 else n < 1 <<< 64

def number (cs : List Char) : Except Fault (Taken Json) := do
  let (negative, cs) := match cs with
    | '-' :: rest => (true, rest)
    | _ => (false, cs)
  let (ds, rest) ← whole cs
  let (fraction, rest) ← fraction? rest
  let (power, rest) ← power? rest
  let n := Nat.ofDigitChars 10 ds 0
  if fraction.isNone && power.isNone && isExact negative n then
    return (.integer (Number.signed negative n), rest)
  else
    let x := Double.ofDecimal
      (Number.decimal negative ds (fraction.getD []) (power.getD 0))
    return (if x.isFinite then .real x else .unreadable, rest)

def scalar : List Char → Except Fault (Taken Json)
  | 'n' :: rest => word .null "ull".toList rest
  | 't' :: rest => word (.boolean true) "rue".toList rest
  | 'f' :: rest => word (.boolean false) "alse".toList rest
  | '\"' :: rest => do
    let (s, rest) ← string? rest
    return ((s.map Json.string).getD .unreadable, rest)
  | c :: rest => if c = '-' || c.isDigit then number (c :: rest) else .error .malformed
  | [] => .error .truncated

/-! ## Arrays and objects -/

inductive Container where
  | array
  | object

def Container.close : Container → Char
  | array => ']'
  | object => '\x7d'

/-- The key of a member and the colon after it. -/
def key (cs : List Char) : Except Fault (Taken (Option String)) := do
  match skipSpace cs with
  | '\"' :: rest =>
    let (k, rest) ← string? rest
    match skipSpace rest with
    | ':' :: rest => return (k, rest)
    | rest => throw (unexpected rest)
  | rest => throw (unexpected rest)

/-- Items up to the closing bracket, at most as many as the bound. -/
def items {α : Type} (item : Front α) (close : Char) : Nat → Front (List α)
  | 0, _ => .error .malformed
  | bound + 1, cs => do
    let (x, rest) ← item cs
    match skipSpace rest with
    | c :: rest =>
      if c = ',' then
        let (xs, rest) ← items item close bound rest
        return (x :: xs, rest)
      else if c = close then return ([x], rest)
      else throw .malformed
    | [] => throw .truncated

def container {α : Type} (item : Front α) (close : Char) (bound : Nat) (cs : List Char) :
    Except Fault (Taken (List α)) :=
  match skipSpace cs with
  | c :: rest => if c = close then .ok ([], rest) else items item close bound (c :: rest)
  | [] => .error .truncated

/-- What may come next in the container opened last. -/
inductive Place where
  | first
  | item
  | afterItem
  deriving DecidableEq

/--
Passes over the containers that are open, the innermost one first, up to where the last of them is
closed. Every step takes at least one character.
-/
def passOver : Nat → List Container → Place → List Char → Except Fault (List Char)
  | 0, _, _, _ => .error .malformed
  | _ + 1, [], _, cs => .ok cs
  | bound + 1, top :: opened, place, cs => do
    match skipSpace cs with
    | [] => throw .truncated
    | c :: rest =>
      if place ≠ .item && c = top.close then passOver bound opened .afterItem rest
      else if place = .afterItem then
        if c = ',' then passOver bound (top :: opened) .item rest else throw .malformed
      else
        let rest ← match top with
          | .array => pure (c :: rest)
          | .object => Prod.snd <$> key (c :: rest)
        match skipSpace rest with
        | '[' :: rest => passOver bound (.array :: top :: opened) .first rest
        | '\x7b' :: rest => passOver bound (.object :: top :: opened) .first rest
        | rest =>
          let (_, rest) ← scalar rest
          passOver bound (top :: opened) .afterItem rest

def passed (bound : Nat) (c : Container) (cs : List Char) : Except Fault (Taken Json) :=
  (passOver bound [c] .first cs).map fun rest => (.unreadable, rest)

def array (item : Front Json) (bound : Nat) (cs : List Char) : Except Fault (Taken Json) := do
  let (elements, rest) ← container item ']' bound cs
  return (.array elements, rest)

def member (item : Front Json) (cs : List Char) :
    Except Fault (Taken (Option (String × Json))) := do
  let (k, rest) ← key cs
  let (j, rest) ← item rest
  return (k.map (·, j), rest)

/-- An object with an unreadable key is unreadable. -/
def object (item : Front Json) (bound : Nat) (cs : List Char) : Except Fault (Taken Json) := do
  let (members, rest) ← container (member item) '\x7d' bound cs
  return (((members.mapM id).map Json.object).getD .unreadable, rest)

def valueWith (array object : Front Json) (cs : List Char) : Except Fault (Taken Json) :=
  match skipSpace cs with
  | '[' :: rest => array rest
  | '\x7b' :: rest => object rest
  | rest => scalar rest

/-- A value with at most so many nested containers, and so many items in each. -/
def value (bound : Nat) : Nat → Front Json
  | 0 => valueWith (passed bound .array) (passed bound .object)
  | depth + 1 => valueWith (array (value bound depth) bound) (object (value bound depth) bound)

def maxDepth : Nat := 127

/-- The first value of a text; no text has more items than characters. -/
def first (cs : List Char) : Except Fault (Taken Json) :=
  value cs.length maxDepth cs

end Reader

/-- The value that stands at the start of a text, whatever follows it. -/
def readFirst (text : String) : Except Fault Json :=
  (Reader.first text.toList).map Prod.fst

/-- The value of a text that holds nothing else. -/
def read (text : String) : Except Fault Json := do
  let (j, rest) ← Reader.first text.toList
  if (Reader.skipSpace rest).isEmpty then return j else throw .malformed

end HomeScript.Json
