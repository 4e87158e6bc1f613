import HomeScript.Automation.Builtin
import HomeScript.Automation.Operator

/-! # Types of blocks

The names under which the editor knows its blocks, inputs and operators.
-/

namespace HomeScript

namespace Builtin

/-- The time function is not called after its name. -/
def blockType : Builtin → String
  | time => "time_function"
  | f => f.name

def ofBlockType (type : String) : Option Builtin :=
  all.find? fun f => f.blockType = type

/-- The inputs of the arguments, in their order. -/
def inputs : Builtin → List String
  | getDevice | getIntegration | eventDate | eventTime => []
  | time => ["TIME_STRING"]
  | turnOnDevice | turnOffDevice | deviceStatus | toggleDevice | isDeviceOn | isDeviceOff
  | getDeviceState => ["DEVICE_ID"]
  | setDeviceTemperature => ["DEVICE_ID", "TEMPERATURE"]
  | number => ["VALUE"]
  | echo => ["ACTION"]

theorem length_inputs (f : Builtin) : f.inputs.length = f.slots.length := by
  cases f <;> rfl

end Builtin

namespace Operator

def token : Operator → String
  | add => "ADD"
  | subtract => "SUB"
  | multiply => "MUL"
  | divide => "DIV"
  | greater => "GREATER"
  | lesser => "LESSER"
  | equals => "EQUALS"
  | and => "AND"
  | or => "OR"

def ofToken (token : String) : Option Operator :=
  all.find? fun op => op.token = token

theorem ofToken_token (op : Operator) : ofToken op.token = some op := by
  cases op <;> decide

end Operator

/-- Blocks that stand for values. -/
inductive ValueBlock where
  | string
  | number
  | boolean
  | null
  | operation
  | conjunction
  | negation
  /-- Whether the event came from a device. -/
  | origin
  | builtin (f : Builtin)
  /-- A device, or nothing known. -/
  | other
  deriving DecidableEq

namespace ValueBlock

def named : List (String × ValueBlock) :=
  [("const_string", string), ("const_number", number), ("const_boolean", boolean),
    ("const_null", null), ("arithmetic_operation", operation),
    ("comparison_operation", operation), ("logical_operation", operation),
    ("condition_and", conjunction), ("logical_not", negation),
    ("condition_event_was_from_device", origin)]

def ofType (type : String) : ValueBlock :=
  match named.lookup type with
  | some v => v
  | none =>
    match Builtin.ofBlockType type with
    | some f => builtin f
    | none => other

end ValueBlock

/-- Blocks that stand for statements. -/
inductive StatementBlock where
  | guard
  | action
  /-- A function applied to the device at an input. -/
  | deviceAction (f : Builtin)
  | other
  deriving DecidableEq

namespace StatementBlock

def named : List (String × StatementBlock) :=
  [("condition", guard), ("action", action),
    ("action_turn_on_device", deviceAction .turnOnDevice),
    ("action_turn_off_device", deviceAction .turnOffDevice)]

def ofType (type : String) : StatementBlock :=
  (named.lookup type).getD other

end StatementBlock

/-- Blocks that stand for automations. -/
inductive AutomationBlock where
  | onEvent
  | atTime
  deriving DecidableEq

namespace AutomationBlock

def named : List (String × AutomationBlock) :=
  [("automation", onEvent), ("automation_time_based", atTime)]

def ofType (type : String) : Option AutomationBlock :=
  named.lookup type

end AutomationBlock
end HomeScript
