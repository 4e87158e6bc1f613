import HomeScript.Automation.Slot
import HomeScript.Number.Shortest

/-! # Number literals of scripts -/

namespace HomeScript.Script

/--
The shortest digits that read back, without a power of ten. What is no finite number is written as
an unconnected number.
-/
def number (x : Double) : String :=
  if x.isFinite then String.ofList (x.shortest .away).positional else Slot.number.default

end HomeScript.Script
