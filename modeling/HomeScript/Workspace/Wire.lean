import HomeScript.Json.Reader
import HomeScript.Json.Record
import HomeScript.Workspace.Block

/-! # Workspaces in JSON

Blocks, connections and workspaces are records. The values of fields are kept as they are.
-/

namespace HomeScript
open Json (Fault Part)

namespace Block

def jsonFields : List String :=
  ["type", "id", "fields", "inputs", "next"]

/-- Any value that can be read. -/
def freeValue (j : Json) : Except Fault Json :=
  if j.isReadable then .ok j else .error .malformed

def ofJson (j : Json) : Except Fault Block := do
  let connection (c : Part j) : Except Fault (Connection Block) := do
    let r ← c.1.record ["block", "shadow"] .streamed
    let plugged (name : String) : Except Fault (Option Block) :=
      r.optional name none (Json.nullable fun b =>
        have : sizeOf b.1 < sizeOf j := Nat.lt_trans b.2 c.2
        ofJson b.1)
    return ⟨← plugged "block", ← plugged "shadow"⟩
  let r ← j.record jsonFields .streamed
  return {
    type := ← r.required "type" (·.1.asString)
    id := ← r.optional "id" none (Json.nullable (·.1.asString))
    fields := ← r.optional "fields" [] fun v => do
      (← v.1.members).mapM fun (name, x) => (name, ·) <$> freeValue x.1
    inputs := ← r.optional "inputs" [] fun v => do
      (← v.1.members).mapM fun (name, c) =>
        (name, ·) <$> connection ⟨c.1, Nat.lt_trans c.2 v.2⟩
    next := ← r.optional "next" none (Json.nullable connection) }
termination_by sizeOf j

end Block

namespace Workspace

def blocksOfJson (j : Json) : Except Fault (List Block) := do
  let r ← j.record ["blocks"] .streamed
  r.optional "blocks" [] fun v => do (← v.1.elements).mapM (Block.ofJson ·.1)

def ofJson (j : Json) : Except Fault Workspace := do
  let r ← j.record ["blocks"] .streamed
  return ⟨← r.optional "blocks" [] (blocksOfJson ·.1)⟩

def read (text : String) : Except Fault Workspace :=
  Json.read text >>= ofJson

end Workspace
end HomeScript
