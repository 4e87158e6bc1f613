import HomeScript.Json.Fault
import HomeScript.Number.Nearest

/-! # Records and variants in JSON

A record is written as an object with its fields as members, or as an array of its fields in order.
A variant is named by a tag, and a tagged value is a record with one member or element more. The
parts of a value come with the fact that they are smaller than it, for readers that follow the
nesting.
-/

namespace HomeScript.Json

/--
Whether the shape of a value is looked at while its text is read, or when it has been read as part
of a tagged value, whose tag may come late.
-/
inductive Stage where
  | streamed
  | held
  deriving DecidableEq

abbrev Part (j : Json) := { v : Json // sizeOf v < sizeOf j }

def mismatch {α : Type} : Json → Except Fault α
  | unreadable => .error .malformed
  | j => .error (.misfit (.wrongType j))

def asString : Json → Except Fault String
  | string s => .ok s
  | j => mismatch j

def asBoolean : Json → Except Fault Bool
  | boolean b => .ok b
  | j => mismatch j

def asDouble : Json → Except Fault Double
  | integer n => .ok (.ofInt n)
  | real x => .ok x
  | j => mismatch j

def isNull : Json → Bool
  | null => true
  | _ => false

/-! ## Parts -/

theorem sizeOf_element {x : Json} {xs : List Json} (h : x ∈ xs) :
    sizeOf x < sizeOf (array xs) := by
  have := List.sizeOf_lt_of_mem h
  simp only [array.sizeOf_spec]
  omega

theorem sizeOf_member {m : String × Json} {ms : List (String × Json)} (h : m ∈ ms) :
    sizeOf m.2 < sizeOf (object ms) := by
  have := List.sizeOf_lt_of_mem h
  obtain ⟨k, v⟩ := m
  simp only [object.sizeOf_spec, Prod.mk.sizeOf_spec] at *
  omega

def elements : (j : Json) → Except Fault (List (Part j))
  | array xs => .ok (xs.attach.map fun x => ⟨x.1, sizeOf_element x.2⟩)
  | j => mismatch j

def members : (j : Json) → Except Fault (List (String × Part j))
  | object ms => .ok (ms.attach.map fun m => (m.1.1, ⟨m.1.2, sizeOf_member m.2⟩))
  | j => mismatch j

/-! ## Records -/

/-- The members or the elements that stand for the fields of a record. -/
inductive Body (α : Type) where
  | members (ms : List (String × α))
  | elements (xs : List α)

def body : (j : Json) → Except Fault (Body (Part j))
  | array xs => (array xs).elements.map .elements
  | object ms => (object ms).members.map .members
  | j => mismatch j

/-- The parts given for the fields of a record; a missing field is named or counted. -/
structure Record (α : Type) where
  fields : List String
  isNamed : Bool
  parts : List (String × α)

/-- Refuses a field given twice, and elements beyond the fields. -/
def Body.record {α : Type} (fields : List String) (stage : Stage) :
    Body α → Except Fault (Record α)
  | members ms =>
    match fields.find? fun f => 1 < ms.countP (·.1 == f) with
    | some f => .error (.misfit (.repeated f))
    | none => .ok ⟨fields, true, ms⟩
  | elements xs =>
    if xs.length ≤ fields.length then .ok ⟨fields, false, fields.zip xs⟩
    else match stage with
      | .streamed => .error .malformed
      | .held => .error (.misfit (.wrongLength xs.length))

namespace Record
variable {α β : Type}

def part? (r : Record α) (field : String) : Option α :=
  r.parts.lookup field

def required (r : Record α) (field : String) (read : α → Except Fault β) : Except Fault β :=
  match r.part? field with
  | some part => read part
  | none =>
    .error (.misfit (if r.isNamed then .missing field else .wrongLength (r.fields.idxOf field)))

def optional (r : Record α) (field : String) (default : β) (read : α → Except Fault β) :
    Except Fault β :=
  match r.part? field with
  | some part => read part
  | none => .ok default

end Record

def record (fields : List String) (stage : Stage) (j : Json) : Except Fault (Record (Part j)) :=
  j.body >>= Body.record fields stage

/-- A null stands for nothing. -/
def nullable {α : Type} {j : Json} (read : Part j → Except Fault α) (part : Part j) :
    Except Fault (Option α) :=
  if part.1.isNull then .ok none else some <$> read part

/-! ## Variants -/

def variantNamed {α : Type} (known : List (String × α)) (name : String) : Except Fault α :=
  match known.lookup name with
  | some x => .ok x
  | none => .error (.misfit (.unknownVariant name (known.map Prod.fst)))

/-- A tag that has been held may give the position of its variant. -/
def tagVariant {α : Type} (known : List (String × α)) (stage : Stage) :
    Json → Except Fault α
  | string name => variantNamed known name
  | integer n =>
    if stage = .held ∧ 0 ≤ n then
      match known[n.toNat]? with
      | some (_, x) => .ok x
      | none => .error (.misfit (.wrongValue (integer n)))
    else mismatch (integer n)
  | j => mismatch j

/-- Nothing follows the name of a plain variant; an empty object will do if the value was held. -/
def noContent (stage : Stage) : Json → Except Fault Unit
  | null => .ok ()
  | object [] => if stage = .held then .ok () else mismatch (object [])
  | j => mismatch j

/-- One of several names, by itself or as the key of an object that holds nothing else. -/
def plainVariant {α : Type} (known : List (String × α)) (stage : Stage) :
    Json → Except Fault α
  | string name => variantNamed known name
  | object [(name, content)] => do
    let x ← variantNamed known name
    noContent stage content
    return x
  | object ms =>
    match stage with
    | .streamed => .error .malformed
    | .held => .error (.misfit (.wrongValue (object ms)))
  | j =>
    match stage with
    | .streamed => .error .malformed
    | .held => mismatch j

/-- The tag of a tagged value and what remains for the fields of its variant. -/
def tagged (tag : String) (j : Json) : Except Fault (Part j × Body (Part j)) := do
  match ← j.body with
  | .members ms =>
    match ms.filter (·.1 == tag) with
    | [] => throw (.misfit (.missing tag))
    | [(_, t)] => return (t, .members ms)
    | _ => throw (.misfit (.repeated tag))
  | .elements [] => throw (.misfit (.missing tag))
  | .elements (t :: rest) => return (t, .elements rest)

end HomeScript.Json
