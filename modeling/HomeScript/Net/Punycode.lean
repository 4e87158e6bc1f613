/-! # Punycode

A label with characters beyond ASCII is written with ASCII letters and digits alone: its ASCII
characters, and then where the others come in, as differences in a number system whose thresholds
adapt to the label.
-/

namespace HomeScript.Net.Punycode

/-- Digits are the letters and then the decimal digits. -/
def digit (n : Nat) : Char :=
  if n < 26 then Char.ofNat ('a'.toNat + n) else Char.ofNat ('0'.toNat + (n - 26))

/-- The greatest digit that can end a number at its position lies just below the threshold. -/
def threshold (bias position : Nat) : Nat :=
  max 1 (min 26 (36 * position - bias))

theorem threshold_bounds (bias position : Nat) :
    1 ≤ threshold bias position ∧ threshold bias position ≤ 26 := by
  unfold threshold; omega

def number (bias position n : Nat) : List Char :=
  let t := threshold bias position
  if h : n < t then [digit n]
  else
    have : (n - t) / (36 - t) < n := by
      have := threshold_bounds bias position
      exact Nat.lt_of_le_of_lt (Nat.div_le_self ..) (by omega)
    digit (t + (n - t) % (36 - t)) :: number bias (position + 1) ((n - t) / (36 - t))
termination_by n

def adaptFrom (position delta : Nat) : Nat :=
  if 455 < delta then adaptFrom (position + 1) (delta / 35)
  else 36 * position + 36 * delta / (delta + 38)
termination_by delta
decreasing_by omega

/-- The bias after a difference, which is greater for the first one of a label. -/
def adapt (isFirst : Bool) (delta count : Nat) : Nat :=
  let halved := delta / (if isFirst then 700 else 2)
  adaptFrom 0 (halved + halved / count)

structure State where
  written : List Char := []
  delta : Nat := 0
  bias : Nat := 72
  /-- How many characters of the label have been written. -/
  count : Nat

/-- Writes the occurrences of a code point; smaller ones have been written before. -/
def State.scan (start code : Nat) (s : State) (c : Char) : State :=
  if c.toNat < code then { s with delta := s.delta + 1 }
  else if c.toNat = code then
    { written := s.written ++ number s.bias 1 s.delta, delta := 0,
      bias := adapt (s.count = start) s.delta (s.count + 1), count := s.count + 1 }
  else s

/-- One pass over the label for each code point beyond ASCII, in ascending order. -/
def passes (label : List Char) (start : Nat) : Nat → List Nat → State → State
  | _, [], s => s
  | last, code :: codes, s =>
    let s := { s with delta := s.delta + (code - last) * (s.count + 1) }
    let s := label.foldl (State.scan start code) s
    passes label start (code + 1) codes { s with delta := s.delta + 1 }

def encode (label : List Char) : List Char :=
  let plain := label.filter fun c => c.toNat < 0x80
  let codes := ((label.map Char.toNat).filter fun n => 0x80 ≤ n).eraseDups.mergeSort
  let s := passes label plain.length 0x80 codes { count := plain.length }
  plain ++ (if plain.isEmpty then [] else ['-']) ++ s.written

end HomeScript.Net.Punycode
