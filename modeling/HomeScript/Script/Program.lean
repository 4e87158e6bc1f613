import HomeScript.Device.Event
import HomeScript.Script.Expr

/-! # Code of automations

An automation is written line by line: a header with its name and trigger, one line for each guard,
one for each action, a closing brace, and an empty line.
-/

namespace HomeScript

/-- The word that stands for a trigger that is missing or has no name. -/
def noTrigger : String := "None"

def eventToken (event : String) : String :=
  if event = "" then noTrigger else event

def Trigger.token : Trigger → String
  | event e => eventToken e
  | deviceEvent e _ => eventToken e
  | time _ => CatalogEvent.clockTick.name

def conditionLine (q : Quoting) (condition : Option Expr) : String :=
  "if " ++ (Expr.slotFragment q .boolean condition).code

namespace Trigger

def isFromDevice (h : Handle) : Expr :=
  .binary .equals (some (.call .getDevice [])) (some (.string h.text))

def isAtTime (t : String) : Expr :=
  .binary .equals (some (.call .eventTime [])) (some (.call .time [some (.string t)]))

/-- The line that a trigger adds to the conditions of its automation. -/
def guardLine (q : Quoting) : Trigger → Option String
  | event _ => none
  | deviceEvent _ h => some ("if " ++ Fragment.parenthesized ((isFromDevice h).fragment q).code)
  | time t => some (conditionLine q (some (isAtTime t)))

end Trigger

def Action.line (q : Quoting) (a : Action) : Option String :=
  a.call.map fun e => "run " ++ (e.fragment q).code

namespace Automation

def triggerToken (a : Automation) : String :=
  (a.trigger.map Trigger.token).getD noTrigger

/-- The conditions in order: of the trigger, of the user, of the guards among the actions. -/
def guardLines (q : Quoting) (a : Automation) : List String :=
  (a.trigger.bind (Trigger.guardLine q)).toList
    ++ (a.condition.map fun e => conditionLine q (some e)).toList
    ++ a.guards.map fun g => conditionLine q g.expr

/-- Actions without a call are not written. -/
def runLines (q : Quoting) (a : Automation) : List String :=
  a.actions.filterMap (Action.line q)

def header (q : Quoting) (a : Automation) : String :=
  "automation " ++ q.quote a.name ++ " (" ++ a.triggerToken ++ ") \x7b"

def lines (q : Quoting) (a : Automation) : List String :=
  a.header q :: a.guardLines q ++ a.runLines q ++ ["\x7d", ""]

end Automation

/-- Each line with its end. -/
def joinLines (lines : List String) : String :=
  String.join (lines.map (· ++ "\n"))

def Automation.code (q : Quoting) (a : Automation) : String :=
  joinLines (a.lines q)

namespace Program

def code (q : Quoting) (p : Program) : String :=
  String.join (p.map (Automation.code q))

end Program
end HomeScript
