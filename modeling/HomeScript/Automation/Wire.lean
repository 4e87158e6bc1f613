import HomeScript.Automation.Basic
import HomeScript.Device.Wire

/-! # Automations in JSON

Expressions and triggers are tagged by their type, constants by their kind. Optional parts may be
left out when read and are written as null.
-/

namespace HomeScript
open Json (Fault Stage Part)

namespace Builtin

def known : List (String × Builtin) :=
  all.map fun f => (f.name, f)

def toJson (f : Builtin) : Json :=
  .string f.name

def ofJson (stage : Stage) : Json → Except Fault Builtin :=
  Json.plainVariant known stage

end Builtin

namespace Operator

def known : List (String × Operator) :=
  all.map fun op => (op.name, op)

def toJson (op : Operator) : Json :=
  .string op.name

def ofJson (stage : Stage) : Json → Except Fault Operator :=
  Json.plainVariant known stage

end Operator

namespace Constant

inductive Kind where
  | string
  | number
  | boolean
  | null

def Kind.known : List (String × Kind) :=
  [("string", string), ("number", number), ("boolean", boolean), ("null", null)]

def toJson : Constant → Json
  | string s => .object [("kind", .string "string"), ("value", .string s)]
  | number x => .object [("kind", .string "number"), ("value", .real x)]
  | boolean b => .object [("kind", .string "boolean"), ("value", .boolean b)]
  | null => .object [("kind", .string "null")]

def ofValue : Kind → Json → Except Fault Constant
  | .string, j => string <$> j.asString
  | .number, j => number <$> j.asDouble
  | .boolean, j => boolean <$> j.asBoolean
  | .null, .null => .ok null
  | .null, j => Json.mismatch j

/-- Only null has no value; elements must always be two. -/
def ofJson (j : Json) : Except Fault Constant := do
  let r ← j.record ["kind", "value"] .held
  let kind ← r.required "kind" (Json.plainVariant Kind.known .held ·.1)
  match kind, r.isNamed with
  | .null, true => r.optional "value" .null (ofValue kind ·.1)
  | _, _ => r.required "value" (ofValue kind ·.1)

end Constant

namespace Expr

inductive Tag where
  | constant
  | device
  | event
  | call
  | binary
  | negation

def Tag.known : List (String × Tag) :=
  [("constant", constant), ("device", device), ("event", event), ("call", call),
    ("binary", binary), ("not", negation)]

mutual

def toJson : Expr → Json
  | constant c => .object [("type", .string "constant"), ("value", c.toJson)]
  | device h => .object [("type", .string "device"), ("handle", h.toJson)]
  | event name => .object [("type", .string "event"), ("name", .string name)]
  | call f arguments =>
    .object [("type", .string "call"), ("function", f.toJson),
      ("args", .array (argumentsToJson arguments))]
  | binary op left right =>
    .object [("type", .string "binary"), ("op", op.toJson), ("left", optionToJson left),
      ("right", optionToJson right)]
  | negation operand => .object [("type", .string "not"), ("operand", optionToJson operand)]

def optionToJson : Option Expr → Json
  | some e => e.toJson
  | none => .null

def argumentsToJson : List (Option Expr) → List Json
  | [] => []
  | a :: rest => optionToJson a :: argumentsToJson rest

end

/-- An expression is read as a whole before its tag is looked at. -/
def ofJson (stage : Stage) (j : Json) : Except Fault Expr := do
  if ¬ j.isReadable then throw .malformed
  let (tag, body) ← j.tagged "type"
  match ← Json.tagVariant Tag.known stage tag.1 with
  | .constant =>
    let r ← body.record ["value"] .held
    constant <$> r.required "value" (Constant.ofJson ·.1)
  | .device =>
    let r ← body.record ["handle"] .held
    device <$> r.required "handle" (Handle.ofJson ·.1)
  | .event =>
    let r ← body.record ["name"] .held
    event <$> r.required "name" (·.1.asString)
  | .call =>
    let r ← body.record ["function", "args"] .held
    let f ← r.required "function" (Builtin.ofJson .held ·.1)
    call f <$> r.optional "args" [] fun args => do
      (← args.1.elements).mapM (Json.nullable fun a =>
        have : sizeOf a.1 < sizeOf j := Nat.lt_trans a.2 args.2
        ofJson .held a.1)
  | .binary =>
    let r ← body.record ["op", "left", "right"] .held
    let op ← r.required "op" (Operator.ofJson .held ·.1)
    let left ← r.optional "left" none (Json.nullable fun e => ofJson .held e.1)
    let right ← r.optional "right" none (Json.nullable fun e => ofJson .held e.1)
    return binary op left right
  | .negation =>
    let r ← body.record ["operand"] .held
    negation <$> r.optional "operand" none (Json.nullable fun e => ofJson .held e.1)
termination_by sizeOf j
decreasing_by
  · assumption
  all_goals exact e.2

end Expr

namespace Trigger

inductive Tag where
  | event
  | deviceEvent
  | time

def Tag.known : List (String × Tag) :=
  [("event", event), ("device_event", deviceEvent), ("time", time)]

def toJson : Trigger → Json
  | event e => .object [("type", .string "event"), ("event", .string e)]
  | deviceEvent e h =>
    .object [("type", .string "device_event"), ("event", .string e), ("device", h.toJson)]
  | time t => .object [("type", .string "time"), ("time", .string t)]

def ofJson (j : Json) : Except Fault Trigger := do
  if ¬ j.isReadable then throw .malformed
  let (tag, body) ← j.tagged "type"
  match ← Json.tagVariant Tag.known .streamed tag.1 with
  | .event =>
    let r ← body.record ["event"] .held
    event <$> r.required "event" (·.1.asString)
  | .deviceEvent =>
    let r ← body.record ["event", "device"] .held
    return deviceEvent (← r.required "event" (·.1.asString))
      (← r.required "device" (Handle.ofJson ·.1))
  | .time =>
    let r ← body.record ["time"] .held
    time <$> r.required "time" (·.1.asString)

end Trigger

namespace Guard

def toJson (g : Guard) : Json :=
  .object [("expr", Expr.optionToJson g.expr)]

def ofJson (j : Json) : Except Fault Guard := do
  let r ← j.record ["expr"] .streamed
  return ⟨← r.optional "expr" none (Json.nullable (Expr.ofJson .streamed ·.1))⟩

end Guard

namespace Action

def toJson (a : Action) : Json :=
  .object [("call", Expr.optionToJson a.call)]

def ofJson (j : Json) : Except Fault Action := do
  let r ← j.record ["call"] .streamed
  return ⟨← r.optional "call" none (Json.nullable (Expr.ofJson .streamed ·.1))⟩

def listOfJson (j : Json) : Except Fault (List Action) := do
  (← j.elements).mapM (ofJson ·.1)

end Action

namespace Automation

def fields : List String :=
  ["id", "name", "trigger", "condition", "conditions", "actions"]

def toJson (a : Automation) : Json :=
  .object [("id", textOrNull a.id), ("name", .string a.name),
    ("trigger", (a.trigger.map Trigger.toJson).getD .null),
    ("condition", Expr.optionToJson a.condition),
    ("conditions", .array (a.guards.map Guard.toJson)),
    ("actions", .array (a.actions.map Action.toJson))]

def ofJson (j : Json) : Except Fault Automation := do
  let r ← j.record fields .streamed
  return {
    id := ← r.optional "id" none (Json.nullable (·.1.asString))
    name := ← r.required "name" (·.1.asString)
    trigger := ← r.optional "trigger" none (Json.nullable (Trigger.ofJson ·.1))
    condition := ← r.optional "condition" none (Json.nullable (Expr.ofJson .streamed ·.1))
    guards := ← r.optional "conditions" [] fun v => do (← v.1.elements).mapM (Guard.ofJson ·.1)
    actions := ← r.optional "actions" [] (Action.listOfJson ·.1) }

end Automation

namespace Program

def toJson (p : Program) : Json :=
  .array (p.map Automation.toJson)

def ofJson (j : Json) : Except Fault Program := do
  (← j.elements).mapM (Automation.ofJson ·.1)

end Program
end HomeScript
