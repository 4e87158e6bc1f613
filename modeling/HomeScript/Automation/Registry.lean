import HomeScript.Automation.Basic

/-! # Names of automations

The registry holds the names in use, each with the owner that claimed it. An owner holds one name:
with a new one it gives up the old.
-/

namespace HomeScript

structure Registry where
  /-- Each name with its owner. -/
  entries : List (String × String) := []

/-- A claim of a name that another owner holds. -/
structure DuplicateName where
  name : String
  owner : String
  deriving DecidableEq

def DuplicateName.message (e : DuplicateName) : String :=
  "Duplicate automation name " ++ Text.shown e.name ++ " (already used by " ++ e.owner ++ ")"

namespace Registry

def empty : Registry := {}

def ownerOf (r : Registry) (name : String) : Option String :=
  r.entries.lookup name

def size (r : Registry) : Nat :=
  r.entries.length

def release (r : Registry) (owner : String) : Registry :=
  ⟨r.entries.filter fun (_, o) => o ≠ owner⟩

def claim (r : Registry) (name owner : String) : Except DuplicateName Registry :=
  match r.ownerOf name with
  | some current => if current = owner then .ok r else .error ⟨name, current⟩
  | none => .ok ⟨(name, owner) :: (r.release owner).entries⟩

/-- The owner of the automation at a position of a program. -/
def ownerKey (index : Nat) (a : Automation) : String :=
  a.id.getD ("#" ++ Nat.repr index)

/-- Claims the names in order; a name that is refused is passed over. -/
def claimAll (r : Registry) (index : Nat) : Program → Registry × List DuplicateName
  | [] => (r, [])
  | a :: rest =>
    match r.claim a.name (ownerKey index a) with
    | .ok r => r.claimAll (index + 1) rest
    | .error e =>
      let (r, errors) := r.claimAll (index + 1) rest
      (r, e :: errors)

def ofProgram (p : Program) : Registry × List DuplicateName :=
  empty.claimAll 0 p

end Registry
end HomeScript
