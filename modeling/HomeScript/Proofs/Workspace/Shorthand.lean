import HomeScript.Proofs.Workspace.Edits
import HomeScript.Proofs.Workspace.Shape

/-! # Shorthand blocks

Some blocks say in short what others say in full: a conjunction, an action on one device, and the
question for the device of the event. Wherever such a block stands, the longer one stands for the
same, so that a workspace in full has the automations that it has in short.
-/

namespace HomeScript

/-! ## Long forms -/

namespace Block

/-- Inputs under other names, each with all that is connected to it. -/
def renamedInputs (b : Block) (names : List (String × String)) :
    List (String × Connection Block) :=
  names.filterMap fun (old, new) => (lastNamed old b.inputs).map (new, ·)

def longConjunction (b : Block) : Block :=
  { b with
    type := "logical_operation"
    fields := [("OP", .string "AND")]
    inputs := b.renamedInputs [("CONDITION1", "LEFT"), ("CONDITION2", "RIGHT")] }

/-- A function block of some type, applied to what is plugged in if that is a device. -/
def deviceCall (type : String) (b : Block) : Block where
  type := type
  inputs :=
    if (b.deviceAt "NAME").value.isSome then b.renamedInputs [("NAME", "DEVICE_ID")] else []

def longDeviceAction (type : String) (b : Block) : Block :=
  { b with
    type := "action"
    fields := []
    inputs := [("ACTION", { block := some (b.deviceCall type) })] }

def longOrigin (b : Block) : Block :=
  { b with
    type := "comparison_operation"
    fields := [("OP", .string "EQUALS")]
    inputs := ("LEFT", { block := some { type := "get_device" } })
      :: match (b.deviceAt "NAME").value with
        | some h => [("RIGHT", { block := some {
            type := "const_string"
            fields := [("VALUE", .string h.text)] } })]
        | none => [] }

/-- What a shorthand block stands for, in full. -/
def longForm (b : Block) : Block :=
  match b.type with
  | "condition_and" => b.longConjunction
  | "action_turn_on_device" => b.longDeviceAction "turn_on_device"
  | "action_turn_off_device" => b.longDeviceAction "turn_off_device"
  | "condition_event_was_from_device" => b.longOrigin
  | _ => b

end Block

/-- All shorthand is spelled out, at any depth and wherever it stands. -/
def Workspace.longForm (w : Workspace) : Workspace :=
  w.edited { block := Block.longForm }

/-! ## Devices as values -/

theorem ValueBlock.ofType_of_mem {type : String} (h : '@' ∈ type.toList) : ofType type = other := by
  have hnamed : named.lookup type = none := by
    rw [List.lookup_eq_none_iff]
    have hall : ∀ p ∈ named, '@' ∉ p.1.toList := by decide
    rintro p hp
    rw [bne_iff_ne]
    rintro rfl
    exact hall p hp h
  have hbuiltin : Builtin.ofBlockType type = none := by
    have hall : ∀ f ∈ Builtin.all, '@' ∉ f.blockType.toList := by decide
    rw [Builtin.ofBlockType, List.find?_eq_none]
    intro f hf hb
    obtain rfl : f.blockType = type := of_decide_eq_true hb
    exact hall f hf h
  rw [ofType, hnamed, hbuiltin]

namespace Block

/-- A block that names a device is no other value. -/
theorem ofType_of_device {b : Block} {h : Handle} (hd : b.device.value = some h) :
    ValueBlock.ofType b.type = .other := by
  by_cases hb : b.type = "device"
  · rw [hb]
    decide
  · rw [value_device, handle, if_neg hb, Option.bind_eq_some_iff] at hd
    obtain ⟨r, hr, hd⟩ := hd
    obtain ⟨text, htext, rfl⟩ := Option.map_eq_some_iff.1 hr
    cases hp : Handle.parse text with
    | error e => simp [hp, Except.toOption] at hd
    | ok d =>
      apply ValueBlock.ofType_of_mem
      rw [afterWord_eq_some_iff.1 htext, ← Handle.text_of_parse hp]
      simp [Handle.text]

theorem value_expr_of_device {b : Block} {h : Handle} (hd : b.device.value = some h) :
    b.expr.value = some (.device h) := by
  rw [value_expr, ofType_of_device hd, hd]
  rfl

/-! ## Short and long -/

/-- Two blocks stand for the same, whatever they are asked for. -/
structure SameMeaning (b c : Block) : Prop where
  nextBlock : b.nextBlock = c.nextBlock
  device : b.device.value = c.device.value
  expr : b.expr.value = c.expr.value
  trigger : b.trigger.value = c.trigger.value
  statement : b.statement.value = c.statement.value
  automation : b.automation.value = c.automation.value

/-! Neither shorthand nor what it is short for is a device, an event, or an automation. -/

def valueForms : List String :=
  ["condition_and", "logical_operation", "condition_event_was_from_device", "comparison_operation"]

def actionForms : List String :=
  ["action_turn_on_device", "action_turn_off_device", "action"]

section
variable {b c : Block}

theorem value_device_of_form (h : b.type ∈ valueForms ++ actionForms) :
    b.device.value = none := by
  have hall : ∀ type ∈ valueForms ++ actionForms,
      type ≠ "device" ∧ afterWord "device_" type = none := by
    decide
  obtain ⟨hdevice, hword⟩ := hall _ h
  rw [value_device, handle, if_neg hdevice, hword]
  rfl

theorem value_trigger_of_form (h : b.type ∈ valueForms ++ actionForms) :
    b.trigger.value = none := by
  have hall : ∀ type ∈ valueForms ++ actionForms, afterWord "event_" type = none := by decide
  have hevent : b.event = none := by
    rw [event, hall _ h]
    split <;> rfl
  rw [value_trigger, hevent]
  rfl

theorem value_automation_of_form (h : b.type ∈ valueForms ++ actionForms) :
    b.automation.value = none := by
  have hall : ∀ type ∈ valueForms ++ actionForms, AutomationBlock.ofType type = none := by decide
  rw [value_automation, hall _ h]
  rfl

theorem value_statement_of_form (h : b.type ∈ valueForms) : b.statement.value = none := by
  have hall : ∀ type ∈ valueForms, StatementBlock.ofType type = .other := by decide
  rw [value_statement, hall _ h]

theorem value_expr_of_form (h : b.type ∈ actionForms) : b.expr.value = none := by
  have hall : ∀ type ∈ actionForms, ValueBlock.ofType type = .other := by decide
  rw [value_expr, hall _ h]
  dsimp only
  rw [value_device_of_form (List.mem_append_right _ h)]
  rfl

namespace SameMeaning

theorem of_forms (hb : b.type ∈ valueForms ++ actionForms) (hc : c.type ∈ valueForms ++ actionForms)
    (nextBlock : b.nextBlock = c.nextBlock) (expr : b.expr.value = c.expr.value)
    (statement : b.statement.value = c.statement.value) : b.SameMeaning c where
  nextBlock := nextBlock
  device := by rw [value_device_of_form hb, value_device_of_form hc]
  expr := expr
  trigger := by rw [value_trigger_of_form hb, value_trigger_of_form hc]
  statement := statement
  automation := by rw [value_automation_of_form hb, value_automation_of_form hc]

theorem of_valueForms (hb : b.type ∈ valueForms) (hc : c.type ∈ valueForms)
    (nextBlock : b.nextBlock = c.nextBlock) (expr : b.expr.value = c.expr.value) :
    b.SameMeaning c := by
  apply of_forms (List.mem_append_left _ hb) (List.mem_append_left _ hc) nextBlock expr
  rw [value_statement_of_form hb, value_statement_of_form hc]

theorem of_actionForms (hb : b.type ∈ actionForms) (hc : c.type ∈ actionForms)
    (nextBlock : b.nextBlock = c.nextBlock) (statement : b.statement.value = c.statement.value) :
    b.SameMeaning c := by
  refine of_forms (List.mem_append_right _ hb) (List.mem_append_right _ hc) nextBlock ?_ statement
  rw [value_expr_of_form hb, value_expr_of_form hc]

end SameMeaning

end

section
variable (b : Block)

theorem input_left_longConjunction : b.longConjunction.input "LEFT" = b.input "CONDITION1" := by
  simp only [input, longConjunction, renamedInputs, List.filterMap_cons, List.filterMap_nil]
  cases lastNamed "CONDITION1" b.inputs <;> cases lastNamed "CONDITION2" b.inputs <;> rfl

theorem input_right_longConjunction : b.longConjunction.input "RIGHT" = b.input "CONDITION2" := by
  simp only [input, longConjunction, renamedInputs, List.filterMap_cons, List.filterMap_nil]
  cases lastNamed "CONDITION1" b.inputs <;> cases lastNamed "CONDITION2" b.inputs <;> rfl

theorem sameMeaning_longConjunction (h : b.type = "condition_and") :
    b.longConjunction.SameMeaning b := by
  have hlong : ValueBlock.ofType b.longConjunction.type = .operation :=
    (by decide : ValueBlock.ofType "logical_operation" = .operation)
  have hshort : ValueBlock.ofType b.type = .conjunction := by
    rw [h]
    decide
  have hop : (b.longConjunction.field "OP").bind Operator.ofToken = some .and :=
    (by decide : Operator.ofToken "AND" = some .and)
  refine .of_valueForms (by simp [valueForms, longConjunction]) (by simp [valueForms, h]) rfl ?_
  rw [value_expr, value_expr b, hlong, hshort, hop, Option.map_some]
  simp only [value_exprAt, input_left_longConjunction, input_right_longConjunction]

/-- A function that is applied to a device gets the device, and else nothing. -/
theorem value_expr_deviceCall {type : String} {f : Builtin}
    (hf : ValueBlock.ofType type = .builtin f) (hinputs : f.inputs = ["DEVICE_ID"]) :
    (b.deviceCall type).expr.value
      = some (.call f [(b.deviceAt "NAME").value.map Expr.device]) := by
  have htype : ValueBlock.ofType (b.deviceCall type).type = .builtin f := hf
  have hinput : ((b.deviceCall type).exprAt "DEVICE_ID").value
      = (b.deviceAt "NAME").value.map Expr.device := by
    rw [value_exprAt]
    cases hd : (b.deviceAt "NAME").value with
    | none => simp [input, deviceCall, hd, lastNamed]
    | some h =>
      obtain ⟨c, hc, hdevice⟩ := Option.bind_eq_some_iff.1 ((value_deviceAt b "NAME").symm.trans hd)
      have hsame : (b.deviceCall type).input "DEVICE_ID" = b.input "NAME" := by
        simp only [input, deviceCall, renamedInputs, hd, Option.isSome_some, if_true,
          List.filterMap_cons, List.filterMap_nil]
        cases lastNamed "NAME" b.inputs <;> rfl
      rw [hsame, hc]
      exact value_expr_of_device hdevice
  rw [value_expr, htype]
  dsimp only
  rw [hinputs, List.map_singleton, hinput]

theorem sameMeaning_longDeviceAction {type : String} {f : Builtin}
    (hf : ValueBlock.ofType type = .builtin f) (hinputs : f.inputs = ["DEVICE_ID"])
    (h : b.type ∈ actionForms) (hshort : StatementBlock.ofType b.type = .deviceAction f) :
    (b.longDeviceAction type).SameMeaning b := by
  have hlong : StatementBlock.ofType (b.longDeviceAction type).type = .action :=
    (by decide : StatementBlock.ofType "action" = .action)
  have hinput : (b.longDeviceAction type).input "ACTION" = some (b.deviceCall type) := rfl
  refine .of_actionForms (by simp [actionForms, longDeviceAction]) h rfl ?_
  rw [value_statement, value_statement, hlong, hshort]
  dsimp only
  rw [value_exprAt, hinput, Option.bind_some, b.value_expr_deviceCall hf hinputs]

theorem value_left_longOrigin :
    (b.longOrigin.exprAt "LEFT").value = some (.call .getDevice []) := by
  have hinput : b.longOrigin.input "LEFT" = some { type := "get_device" } := by
    cases hd : (b.deviceAt "NAME").value <;>
      simp [input, longOrigin, hd, lastNamed, Connection.target]
  rw [value_exprAt, hinput, Option.bind_some, value_expr]
  rfl

theorem value_right_longOrigin : (b.longOrigin.exprAt "RIGHT").value
    = (b.deviceAt "NAME").value.map fun h => .string h.text := by
  rw [value_exprAt]
  cases hd : (b.deviceAt "NAME").value with
  | none => simp [input, longOrigin, hd, lastNamed]
  | some h =>
    have hinput : b.longOrigin.input "RIGHT"
        = some { type := "const_string", fields := [("VALUE", .string h.text)] } := by
      simp [input, longOrigin, hd, lastNamed, Connection.target]
    rw [hinput, Option.bind_some, value_expr]
    rfl

theorem sameMeaning_longOrigin (h : b.type = "condition_event_was_from_device") :
    b.longOrigin.SameMeaning b := by
  have hlong : ValueBlock.ofType b.longOrigin.type = .operation :=
    (by decide : ValueBlock.ofType "comparison_operation" = .operation)
  have hshort : ValueBlock.ofType b.type = .origin := by
    rw [h]
    decide
  have hop : (b.longOrigin.field "OP").bind Operator.ofToken = some .equals :=
    (by decide : Operator.ofToken "EQUALS" = some .equals)
  refine .of_valueForms (by simp [valueForms, longOrigin]) (by simp [valueForms, h]) rfl ?_
  rw [value_expr, value_expr b, hlong, hshort, hop, Option.map_some, value_left_longOrigin,
    value_right_longOrigin]

theorem sameMeaning_longForm : b.longForm.SameMeaning b := by
  unfold longForm
  split
  · next h => exact b.sameMeaning_longConjunction h
  · next h =>
    exact b.sameMeaning_longDeviceAction (f := .turnOnDevice) (by decide) rfl
      (by simp [actionForms, h]) (by rw [h]; decide)
  · next h =>
    exact b.sameMeaning_longDeviceAction (f := .turnOffDevice) (by decide) rfl
      (by simp [actionForms, h]) (by rw [h]; decide)
  · next h => exact b.sameMeaning_longOrigin h
  · exact ⟨rfl, rfl, rfl, rfl, rfl, rfl⟩

end

end Block

theorem Edit.keeps_value {f : Block → Block} (h : ∀ b, (f b).SameMeaning b) :
    Edit.Keeps .value { block := f } where
  target _ := rfl
  nextBlock b := (h b).nextBlock
  device b := Noticed.ext (h b).device rfl
  expr b := Noticed.ext (h b).expr rfl
  trigger b := Noticed.ext (h b).trigger rfl
  statement b := Noticed.ext (h b).statement rfl
  automation b := Noticed.ext (h b).automation rfl
  looseBlock _ := rfl

/-- A workspace stands for the same automations in short and in full. -/
theorem Workspace.value_automations_longForm (w : Workspace) :
    w.longForm.automations.value = w.automations.value := by
  have hseen := (Edit.keeps_value Block.sameMeaning_longForm).automations_edited w
  have hvalue := congrArg Noticed.value hseen
  exact hvalue

end HomeScript
