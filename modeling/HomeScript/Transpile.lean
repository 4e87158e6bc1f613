import HomeScript.Script.Emit
import HomeScript.Workspace.Decode
import HomeScript.Workspace.Wire

/-! # From workspaces to code

A workspace becomes the code of its automations. Names used twice do not stop that; they are
reported beside the code.
-/

namespace HomeScript

structure Transpiled where
  code : String
  duplicates : List DuplicateName
  /-- How many names the automations have. -/
  names : Nat

namespace Transpiled

def warnings (t : Transpiled) : List String :=
  t.duplicates.map DuplicateName.message

def ofProgram (q : Quoting) (p : Program) : Noticed Transpiled := do
  let (registry, duplicates) := Registry.ofProgram p
  duplicates.forM fun d => .tell (.duplicateName d)
  return ⟨← p.emit q, duplicates, registry.size⟩

end Transpiled

def Workspace.transpile (q : Quoting) (w : Workspace) : Noticed Transpiled := do
  Transpiled.ofProgram q (← w.automations)

end HomeScript
