import HomeScript.Notice
import HomeScript.Script.Program

/-! # Emission of programs

The code of a program together with the notices of writing it: one for each action with nothing to
run, and one at the end.
-/

namespace HomeScript

/-- One notice for each action without a call, with its position. -/
def Automation.skipNotices (a : Automation) : List Notice :=
  a.actions.zipIdx.filterMap fun (action, index) =>
    if action.call.isNone then some (.skippedAction index) else none

namespace Program

def emit (q : Quoting) (p : Program) : Noticed String :=
  let code := p.code q
  ⟨code, p.flatMap Automation.skipNotices ++ [.generated p.length code.utf8ByteSize]⟩

end Program
end HomeScript
