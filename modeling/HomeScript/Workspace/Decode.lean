import HomeScript.Notice
import HomeScript.Number.Literal
import HomeScript.Text.Blank
import HomeScript.Workspace.Block
import HomeScript.Workspace.BlockType

/-! # Automations of a workspace

Blocks are read as automations, statements and values. What is not known counts as not connected,
and a notice says so.
-/

namespace HomeScript

/-- The number in a field, which may be written as text. -/
def Json.numberField : Json → Option Double
  | .integer n => some (.ofInt n)
  | .real x => some x
  | .string s => Number.read? (Text.trim s.toList)
  | _ => none

/-- What follows a word at the start of a text. -/
def afterWord (word text : String) : Option String :=
  if word.toList.isPrefixOf text.toList then
    some (String.ofList (text.toList.drop word.length))
  else none

namespace Block

/-- The handle in a device block: in two fields, or in the name of the block's type. -/
def handle (b : Block) : Option (Except Handle.Malformed Handle) :=
  if b.type = "device" then do
    let integration ← b.field "INTEGRATION"
    let device ← b.field "DEVICE"
    return Handle.ofParts integration device
  else
    (afterWord "device_" b.type).map Handle.parse

def device (b : Block) : Noticed (Option Handle) := do
  match b.handle with
  | some (.ok h) => return some h
  | some (.error e) =>
    .tell (.invalidDevice b.type e)
    return none
  | none => return none

def deviceAt (b : Block) (name : String) : Noticed (Option Handle) :=
  match b.input name with
  | some c => c.device
  | none => return none

/-- The expression of a value block, or nothing if it is of no use. -/
def expr (b : Block) : Noticed (Option Expr) := do
  let value (name : String) : Noticed (Option Expr) :=
    match b.inner name with
    | some c => c.1.expr
    | none => return none
  match ValueBlock.ofType b.type with
  | .string => return some (.string ((b.field "VALUE").getD ""))
  | .number => return some (.number (((b.fieldValue "VALUE").bind Json.numberField).getD .zero))
  | .boolean => return some (.boolean (b.field "VALUE" = some "true"))
  | .null => return some .null
  | .operation =>
    match (b.field "OP").bind Operator.ofToken with
    | some op => return some (.binary op (← value "LEFT") (← value "RIGHT"))
    | none =>
      .tell (.unknownOperator (b.field "OP") b.type)
      return none
  | .conjunction => return some (.binary .and (← value "CONDITION1") (← value "CONDITION2"))
  | .negation => return some (.negation (← value "VALUE"))
  | .origin =>
    let h ← b.deviceAt "NAME"
    return some (.binary .equals (some (.call .getDevice [])) (h.map fun h => .string h.text))
  | .builtin f => return some (.call f (← f.inputs.mapM value))
  | .other =>
    match ← b.device with
    | some h => return some (.device h)
    | none =>
      .tell (.unknownValue b.type)
      return none
termination_by sizeOf b
decreasing_by exact c.2

def exprAt (b : Block) (name : String) : Noticed (Option Expr) :=
  match b.input name with
  | some c => c.expr
  | none => return none

/-- Blocks that tell the date or time of an event are values, not events. -/
def event (b : Block) : Option String :=
  match Builtin.ofBlockType b.type with
  | some _ => none
  | none => afterWord "event_" b.type

def trigger (b : Block) : Noticed (Option Trigger) := do
  match b.event with
  | some e =>
    match ← b.deviceAt "DEVICE" with
    | some h => return some (.deviceEvent e h)
    | none => return some (.event e)
  | none =>
    .tell (.unknownEvent b.type)
    return none

end Block

inductive Statement where
  | guard (g : Guard)
  | action (a : Action)

namespace Statement

def guard? : Statement → Option Guard
  | guard g => some g
  | action _ => none

def action? : Statement → Option Action
  | guard _ => none
  | action a => some a

end Statement

namespace Block

def statement (b : Block) : Noticed (Option Statement) := do
  match StatementBlock.ofType b.type with
  | .guard => return some (.guard ⟨← b.exprAt "CONDITION"⟩)
  | .action => return some (.action ⟨← b.exprAt "ACTION"⟩)
  | .deviceAction f =>
    let h ← b.deviceAt "NAME"
    return some (.action ⟨some (.call f [h.map Expr.device])⟩)
  | .other =>
    .tell (.unknownStatement b.type)
    return none

def statements : List Block → Noticed (List Statement)
  | [] => return []
  | b :: rest => do
    let s ← b.statement
    return s.toList ++ (← statements rest)

/-- The statements of the chain that starts at an input. -/
def body (b : Block) (name : String) : Noticed (List Statement) :=
  statements (((b.input name).map chain).getD [])

def triggerAt (b : Block) (name : String) : Noticed (Option Trigger) :=
  match b.input name with
  | some c => c.trigger
  | none => return none

def automation (b : Block) : Noticed (Option Automation) := do
  let some type := AutomationBlock.ofType b.type | return none
  let trigger ← match type with
    | .onEvent => b.triggerAt "EVENT"
    | .atTime => pure ((b.field "TIME0").map Trigger.time)
  let ss ← b.body "ACTIONS"
  let condition ← b.exprAt "CONDITIONS"
  return some {
    id := b.id
    name := (b.field "NAME").getD ""
    trigger, condition
    guards := ss.filterMap Statement.guard?
    actions := ss.filterMap Statement.action? }

end Block

namespace Workspace

def automationsOf : List Block → Noticed Program
  | [] => return []
  | b :: rest => do
    match ← b.automation with
    | some a => return a :: (← automationsOf rest)
    | none =>
      .tell (.looseBlock b.type)
      automationsOf rest

def automations (w : Workspace) : Noticed Program :=
  automationsOf w.blocks

end Workspace
end HomeScript
