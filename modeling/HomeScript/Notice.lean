import HomeScript.Automation.Registry

/-! # Notices

What the editor's user is told in the log while a workspace is turned into code. A computation with
notices gives them in order together with its value.
-/

namespace HomeScript

inductive Notice where
  | looseBlock (type : String)
  | unknownEvent (type : String)
  | invalidDevice (type : String) (cause : Handle.Malformed)
  | unknownStatement (type : String)
  | unknownOperator (token : Option String) (type : String)
  | unknownValue (type : String)
  | duplicateName (cause : DuplicateName)
  | skippedAction (index : Nat)
  | generated (automations bytes : Nat)
  deriving DecidableEq

namespace Notice

inductive Level where
  | debug
  | warn
  deriving DecidableEq

def level : Notice → Level
  | looseBlock _ | duplicateName _ | skippedAction _ | generated _ _ => .debug
  | unknownEvent _ | invalidDevice _ _ | unknownStatement _ | unknownOperator _ _
  | unknownValue _ => .warn

def text : Notice → String
  | looseBlock type => "Ignoring top-level " ++ type ++ " block outside any automation"
  | unknownEvent type => "Unknown event block type: " ++ type
  | invalidDevice type cause => "Invalid device block " ++ type ++ ": " ++ cause.message
  | unknownStatement type => "Unknown statement block type: " ++ type
  | unknownOperator token type =>
    "Unrecognized operator " ++ Text.shownOption token ++ " in " ++ type ++ " block"
  | unknownValue type => "Unknown value block type: " ++ type
  | duplicateName cause => cause.message
  | skippedAction index => "Skipping action " ++ Nat.repr index ++ " with nothing to run"
  | generated automations bytes =>
    "Generated " ++ Nat.repr automations ++ " automations (" ++ Nat.repr bytes ++ " bytes)"

end Notice

structure Noticed (α : Type) where
  value : α
  notices : List Notice := []

namespace Noticed
variable {α β : Type}

instance : Monad Noticed where
  pure x := ⟨x, []⟩
  bind x f := ⟨(f x.value).value, x.notices ++ (f x.value).notices⟩

/-- Nothing but a notice. -/
def tell (n : Notice) : Noticed Unit :=
  ⟨(), [n]⟩

@[simp] theorem value_pure (x : α) : (pure x : Noticed α).value = x := rfl
@[simp] theorem notices_pure (x : α) : (pure x : Noticed α).notices = [] := rfl

@[simp] theorem value_bind (x : Noticed α) (f : α → Noticed β) :
    (x >>= f).value = (f x.value).value := rfl

@[simp] theorem notices_bind (x : Noticed α) (f : α → Noticed β) :
    (x >>= f).notices = x.notices ++ (f x.value).notices := rfl

@[simp] theorem notices_tell (n : Notice) : (tell n).notices = [n] := rfl

theorem ext {x y : Noticed α} (hv : x.value = y.value) (hn : x.notices = y.notices) : x = y := by
  cases x; cases y; simp_all

instance : LawfulMonad Noticed :=
  LawfulMonad.mk' Noticed (fun x => ext rfl (List.append_nil x.notices))
    (fun _ _ => rfl) (fun _ _ _ => ext rfl (List.append_assoc ..))

end Noticed
end HomeScript
