import HomeScript.Number.Double

/-! # JSON values

Members keep the order and the repetitions of the text. A value that stands where nobody looks may
break rules that only its reader would check; it is kept as `unreadable`.
-/

namespace HomeScript

inductive Json where
  | null
  | boolean (b : Bool)
  | integer (n : Int)
  | real (x : Double)
  | string (s : String)
  | array (elements : List Json)
  | object (members : List (String × Json))
  /-- A text with half a surrogate pair, a number beyond all doubles, or too deep a nest. -/
  | unreadable

namespace Json

mutual

def isReadable : Json → Bool
  | unreadable => false
  | array elements => areReadable elements
  | object members => areReadableMembers members
  | _ => true

def areReadable : List Json → Bool
  | [] => true
  | j :: rest => j.isReadable && areReadable rest

def areReadableMembers : List (String × Json) → Bool
  | [] => true
  | (_, j) :: rest => j.isReadable && areReadableMembers rest

end

/-- Puts a member into its place among sorted ones, instead of one of the same key. -/
def insertMember (key : String) (j : Json) : List (String × Json) → List (String × Json)
  | [] => [(key, j)]
  | (k, v) :: rest =>
    if key = k then (key, j) :: rest
    else if key < k then (key, j) :: (k, v) :: rest
    else (k, v) :: insertMember key j rest

mutual

/-- The value with the members of its objects sorted by key, the last one of each key. -/
def sorted : Json → Json
  | array elements => array (sortedEach elements)
  | object members => object (sortedMembers [] members)
  | j => j

def sortedEach : List Json → List Json
  | [] => []
  | j :: rest => j.sorted :: sortedEach rest

def sortedMembers (done : List (String × Json)) : List (String × Json) → List (String × Json)
  | [] => done
  | (key, j) :: rest => sortedMembers (insertMember key j.sorted done) rest

end

end Json
end HomeScript
