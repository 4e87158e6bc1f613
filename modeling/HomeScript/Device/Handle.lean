import HomeScript.Text.Shown

/-! # Device handles

A handle names a device as `integration@device`. The integration has no `@`, so the first one
divides the text.
-/

namespace HomeScript

structure Handle where
  integration : String
  device : String
  deriving DecidableEq

namespace Handle

def text (h : Handle) : String :=
  h.integration ++ "@" ++ h.device

/-- A text that is no handle. -/
structure Malformed where
  text : String
  deriving DecidableEq

def Malformed.message (e : Malformed) : String :=
  "Malformed device handle: " ++ Text.shown e.text

/-- The handles that can be told from their text. -/
def IsWellFormed (h : Handle) : Prop :=
  h.integration ≠ "" ∧ h.device ≠ "" ∧ '@' ∉ h.integration.toList

instance (h : Handle) : Decidable h.IsWellFormed := by
  unfold IsWellFormed; infer_instance

def ofParts (integration device : String) : Except Malformed Handle :=
  let h : Handle := ⟨integration, device⟩
  if h.IsWellFormed then .ok h else .error ⟨h.text⟩

def parse (text : String) : Except Malformed Handle :=
  let (integration, rest) := text.toList.span (· ≠ '@')
  match rest with
  | [] => .error ⟨text⟩
  | _ :: device => ofParts (String.ofList integration) (String.ofList device)

end Handle
end HomeScript
