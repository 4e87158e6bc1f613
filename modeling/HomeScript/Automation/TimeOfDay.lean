import HomeScript.Number.Word
import HomeScript.Text.Blank

/-! # Times of day

A time as typed by a user becomes `HH:MM:SS`. What cannot be used of a part counts as zero, but
without an hour there is no time.
-/

namespace HomeScript

structure TimeOfDay where
  hours : Fin 24
  minutes : Fin 60
  seconds : Fin 60
  deriving DecidableEq

namespace TimeOfDay

def ofParts? (hours minutes seconds : UInt32) : Option TimeOfDay :=
  if h : hours.toNat < 24 ∧ minutes.toNat < 60 ∧ seconds.toNat < 60 then
    some ⟨⟨hours.toNat, h.1⟩, ⟨minutes.toNat, h.2.1⟩, ⟨seconds.toNat, h.2.2⟩⟩
  else none

def twoDigits (n : Nat) : List Char :=
  [Nat.digitChar (n / 10), Nat.digitChar (n % 10)]

def text (t : TimeOfDay) : String :=
  String.ofList (twoDigits t.hours ++ ':' :: twoDigits t.minutes ++ ':' :: twoDigits t.seconds)

def parts (text : String) : List (List Char) :=
  (List.splitOn ':' (Text.trim text.toList)).map Text.trim

def number? (part : List Char) : Option UInt32 :=
  (Number.leadingWord? part).bind Number.unsignedWord?

/-- The number at the start of a part, unless it is negative, missing, or above the limit. -/
def component (limit : UInt32) (part : Option (List Char)) : UInt32 :=
  ((part.bind number?).filter (· ≤ limit)).getD 0

def normalize (text : String) : Option String :=
  let ps := parts text
  if (ps.headD []).isEmpty then none
  else (ofParts? (component 23 ps[0]?) (component 59 ps[1]?) (component 59 ps[2]?)).map
    TimeOfDay.text

end TimeOfDay
end HomeScript
