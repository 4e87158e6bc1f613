import HomeScript.Proofs.Workspace.Saved
import HomeScript.Proofs.Workspace.Shape

/-! # Blocks for automations

Every automation of the shape that blocks have can be put together in the editor: there is a block
for each of its parts, and together they stand for that automation and no other.
-/

namespace HomeScript

/-! ## Blocks of expressions -/

def Handle.block (h : Handle) : Block where
  type := "device"
  fields := [("INTEGRATION", .string h.integration), ("DEVICE", .string h.device)]

def OperatorKind.blockType : OperatorKind → String
  | arithmetic => "arithmetic_operation"
  | comparison => "comparison_operation"
  | logical => "logical_operation"

def Constant.block : Constant → Block
  | string s => { type := "const_string", fields := [("VALUE", .string s)] }
  | number x => { type := "const_number", fields := [("VALUE", .real x)] }
  | boolean b =>
    { type := "const_boolean", fields := [("VALUE", .string (if b then "true" else "false"))] }
  | null => { type := "const_null" }

namespace Expr

mutual

/-- The block of an expression; an event is not taken for a value. -/
def block : Expr → Block
  | constant c => c.block
  | device h => h.block
  | event name => { type := "event_" ++ name }
  | call f arguments =>
    { type := f.blockType, inputs := Block.plugged f.inputs (argumentBlocks arguments) }
  | binary op left right =>
    { type := op.kind.blockType
      fields := [("OP", .string op.token)]
      inputs := Block.plugged ["LEFT", "RIGHT"] [optionBlock left, optionBlock right] }
  | negation operand =>
    { type := "logical_not", inputs := Block.plugged ["VALUE"] [optionBlock operand] }

def optionBlock : Option Expr → Option Block
  | some e => some e.block
  | none => none

def argumentBlocks : List (Option Expr) → List (Option Block)
  | [] => []
  | a :: rest => optionBlock a :: argumentBlocks rest

end

theorem length_argumentBlocks (arguments : List (Option Expr)) :
    (argumentBlocks arguments).length = arguments.length := by
  induction arguments with
  | nil => rfl
  | cons a rest ih => rw [argumentBlocks, List.length_cons, ih, List.length_cons]

end Expr

theorem Handle.value_device_block {h : Handle} (hw : h.IsWellFormed) :
    h.block.device.value = some h := by
  have : h.block.handle = some (ofParts h.integration h.device) := rfl
  rw [Block.value_device, this, ofParts, if_pos hw]
  rfl

theorem ValueBlock.ofType_blockType (f : Builtin) : ofType f.blockType = builtin f := by
  cases f <;> decide

theorem ValueBlock.ofType_operation (k : OperatorKind) : ofType k.blockType = operation := by
  cases k <;> decide

theorem Builtin.nodup_inputs (f : Builtin) : f.inputs.Nodup := by
  cases f <;> decide

theorem Constant.value_expr_block (c : Constant) : c.block.expr.value = some (.constant c) := by
  rw [Block.value_expr]
  cases c with
  | boolean b => cases b <;> rfl
  | _ => rfl

namespace Expr

mutual

theorem value_block : (e : Expr) → EditorShaped e.nodes → e.block.expr.value = some e
  | constant c, _ => c.value_expr_block
  | device h, hs => by
    rw [Block.value_expr]
    change h.block.device.value.map device = _
    rw [Handle.value_device_block (hs _ (self_mem_nodes _))]
    rfl
  | event name, hs => (hs _ (self_mem_nodes _)).elim
  | call f arguments, hs => by
    -- Inputs and arguments go in step because there are as many arguments as slots.
    have hlength : (argumentBlocks arguments).length = f.inputs.length := by
      rw [length_argumentBlocks, Builtin.length_inputs]
      exact hs _ (self_mem_nodes _)
    have htype : ValueBlock.ofType (call f arguments).block.type = .builtin f := by
      rw [block]
      exact ValueBlock.ofType_blockType f
    have hinputs : f.inputs.map (call f arguments).block.input = argumentBlocks arguments :=
      Block.map_input_plugged (by rw [block]) f.nodup_inputs hlength
    have hvalues : (f.inputs.map fun name => ((call f arguments).block.exprAt name).value)
        = arguments := by
      have h := value_argumentBlocks arguments (hs.mono (List.subset_cons_self _ _))
      rw [← hinputs, List.map_map] at h
      exact (List.map_congr_left fun name _ => Block.value_exprAt _ name).trans h
    rw [Block.value_expr, htype]
    exact congrArg (some <| call f ·) hvalues
  | binary op left right, hs => by
    rw [block, Block.value_expr, ValueBlock.ofType_operation]
    have hop : (some op.token).bind Operator.ofToken = some op := Operator.ofToken_token op
    change ((some op.token).bind Operator.ofToken).map _ = _
    rw [hop, Option.map_some, Block.value_exprAt, Block.value_exprAt,
      Block.input_eq (o := optionBlock left) rfl, Block.input_eq (o := optionBlock right) rfl,
      value_optionBlock left (hs.mono (by simp [nodes])),
      value_optionBlock right (hs.mono (by simp [nodes]))]
  | negation operand, hs => by
    rw [block, Block.value_expr]
    change some (negation (Block.exprAt _ "VALUE").value) = _
    rw [Block.value_exprAt, Block.input_eq (o := optionBlock operand) rfl,
      value_optionBlock operand (hs.mono (List.subset_cons_self _ _))]

theorem value_optionBlock : (a : Option Expr) → EditorShaped (optionNodes a) →
    ((optionBlock a).bind fun b => b.expr.value) = a
  | some e, hs => value_block e hs
  | none, _ => rfl

theorem value_argumentBlocks : (arguments : List (Option Expr)) →
    EditorShaped (argumentNodes arguments) →
    ((argumentBlocks arguments).map fun o => o.bind fun b => b.expr.value) = arguments
  | [], _ => rfl
  | a :: rest, hs => by
    rw [argumentBlocks, List.map_cons, value_optionBlock a (hs.mono (by simp [argumentNodes])),
      value_argumentBlocks rest (hs.mono (by simp [argumentNodes]))]

end

end Expr

/-! ## Blocks of automations -/

def Statement.block : Statement → Block
  | guard g =>
    { type := "condition", inputs := Block.plugged ["CONDITION"] [Expr.optionBlock g.expr] }
  | action a =>
    { type := "action", inputs := Block.plugged ["ACTION"] [Expr.optionBlock a.call] }

/-- A chain of blocks, from its first one. -/
def Block.follow : List Block → Option Block
  | [] => none
  | b :: rest => some { b with next := (follow rest).map fun c => { block := some c } }

namespace Trigger

/-- There is no block for a time of day; it is typed into the block of the automation. -/
def block : Trigger → Option Block
  | event e => some { type := "event_" ++ e }
  | deviceEvent e h =>
    some { type := "event_" ++ e, inputs := Block.plugged ["DEVICE"] [some h.block] }
  | time _ => none

def typed : Trigger → Option String
  | time t => some t
  | _ => none

end Trigger

namespace Automation

def statements (a : Automation) : List Statement :=
  a.guards.map .guard ++ a.actions.map .action

def block (a : Automation) : Block where
  type := if (a.trigger.bind Trigger.typed).isSome then "automation_time_based" else "automation"
  id := a.id
  fields := [("NAME", .string a.name), ("TIME0", textOrNull (a.trigger.bind Trigger.typed))]
  inputs := Block.plugged ["EVENT", "CONDITIONS", "ACTIONS"]
    [a.trigger.bind Trigger.block, Expr.optionBlock a.condition,
      Block.follow (a.statements.map Statement.block)]

end Automation

namespace Block

/-- The statements of a chain are those of its blocks. -/
theorem statements_follow (bs : List Block) :
    (((follow bs).map chain).getD []).filterMap (fun b => b.statement.value)
      = bs.filterMap fun b => b.statement.value := by
  induction bs with
  | nil => rfl
  | cons b rest ih =>
    have hnext : Block.nextBlock { b with next := (follow rest).map fun c => { block := some c } }
        = follow rest := by
      rw [nextBlock]
      cases follow rest <;> rfl
    rw [follow, Option.map_some, Option.getD_some, chain_eq, hnext, List.filterMap_cons,
      List.filterMap_cons, ih]
    rfl

end Block

theorem Statement.value_block {s : Statement}
    (hs : Expr.EditorShaped (Expr.optionNodes s.expr)) : s.block.statement.value = some s := by
  rw [Block.value_statement]
  cases s with
  | guard g =>
    change some (guard ⟨(Block.exprAt _ "CONDITION").value⟩) = _
    rw [Block.value_exprAt, Block.input_eq (o := Expr.optionBlock g.expr) rfl,
      Expr.value_optionBlock g.expr hs]
  | action a =>
    change some (action ⟨(Block.exprAt _ "ACTION").value⟩) = _
    rw [Block.value_exprAt, Block.input_eq (o := Expr.optionBlock a.call) rfl,
      Expr.value_optionBlock a.call hs]

theorem Builtin.ofBlockType_event {e : String} (h : e ∉ valueEvents) :
    ofBlockType ("event_" ++ e) = none := by
  have hall : ∀ f ∈ all, ∀ e ∈ afterWord "event_" f.blockType, e ∈ valueEvents := by decide
  rw [ofBlockType, List.find?_eq_none]
  intro f hf hb
  exact h (hall f hf e (afterWord_eq_some_iff.2 (of_decide_eq_true hb)))

theorem Block.event_eq {b : Block} {e : String} (hb : b.type = "event_" ++ e)
    (he : e ∉ valueEvents) : b.event = some e := by
  rw [event, hb, Builtin.ofBlockType_event he]
  exact afterWord_eq_some_iff.2 rfl

theorem Trigger.value_trigger_block {t : Trigger} {b : Block} (hs : t.EditorShaped)
    (hb : t.block = some b) : b.trigger.value = some t := by
  cases t with
  | event e =>
    obtain rfl := Option.some.inj hb
    rw [Block.value_trigger, Block.event_eq rfl hs]
    rfl
  | deviceEvent e h =>
    obtain rfl := Option.some.inj hb
    rw [Block.value_trigger, Block.event_eq rfl hs.1, Block.value_deviceAt,
      Block.input_eq (o := some h.block) rfl, Option.bind_some, Handle.value_device_block hs.2]
    rfl
  | time t => cases hb

namespace Automation

theorem field_typed (a : Automation) :
    a.block.field "TIME0" = a.trigger.bind Trigger.typed := by
  have : a.block.fieldValue "TIME0" = some (textOrNull (a.trigger.bind Trigger.typed)) := rfl
  rw [Block.field, this]
  cases a.trigger.bind Trigger.typed <;> rfl

theorem value_trigger_block {a : Automation} (hs : ∀ t, a.trigger = some t → t.EditorShaped) :
    ∃ type, AutomationBlock.ofType a.block.type = some type
      ∧ a.block.triggerAs type = a.trigger := by
  have hevent : (a.block.triggerAt "EVENT").value
      = (a.trigger.bind Trigger.block).bind fun b => b.trigger.value := by
    rw [Block.value_triggerAt, Block.input_eq (o := a.trigger.bind Trigger.block) rfl]
  cases ht : a.trigger with
  | none => exact ⟨.onEvent, by rw [block, ht]; rfl, by rw [Block.triggerAs, hevent, ht]; rfl⟩
  | some t =>
    -- A trigger is plugged in, or it is a time of day, which no block stands for.
    cases hb : t.block with
    | some b =>
      have htyped : t.typed = none := by cases t <;> cases hb <;> rfl
      refine ⟨.onEvent, by simp [block, ht, htyped]; rfl, ?_⟩
      rw [Block.triggerAs, hevent, ht, Option.bind_some, hb]
      exact Trigger.value_trigger_block (hs t ht) hb
    | none =>
      obtain ⟨time, rfl⟩ : ∃ time, t = .time time := by
        cases t <;> cases hb
        exact ⟨_, rfl⟩
      refine ⟨.atTime, by rw [block, ht]; rfl, ?_⟩
      rw [Block.triggerAs, field_typed, ht]
      rfl

theorem nodes_statement_subset {a : Automation} {s : Statement} (hs : s ∈ a.statements) :
    Expr.optionNodes s.expr ⊆ a.exprs.flatMap Expr.nodes := by
  rw [statements, List.mem_append, List.mem_map, List.mem_map] at hs
  rcases hs with ⟨g, hg, rfl⟩ | ⟨c, hc, rfl⟩
  · exact nodes_guard_subset hg
  · exact nodes_action_subset hc

theorem value_body_block {a : Automation} (hs : Expr.EditorShaped (a.exprs.flatMap Expr.nodes)) :
    (a.block.body "ACTIONS").value = a.statements := by
  have hvalue : ∀ s ∈ a.statements, s.block.statement.value = some s :=
    fun s hmem => Statement.value_block (hs.mono (nodes_statement_subset hmem))
  rw [Block.value_body, Block.input_eq (o := Block.follow (a.statements.map Statement.block)) rfl,
    Block.statements_follow, List.filterMap_map]
  exact (List.filterMap_congr hvalue).trans List.filterMap_some

theorem value_block {a : Automation} (hs : a.EditorShaped) :
    a.block.automation.value = some a := by
  obtain ⟨type, htype, htrigger⟩ := value_trigger_block hs.trigger
  have hcondition : (a.block.exprAt "CONDITIONS").value = a.condition := by
    rw [Block.value_exprAt, Block.input_eq (o := Expr.optionBlock a.condition) rfl]
    exact Expr.value_optionBlock a.condition (hs.exprs.mono (nodes_condition_subset a))
  have hguards : (a.block.body "ACTIONS").value.filterMap Statement.guard? = a.guards := by
    rw [value_body_block hs.exprs]
    simp [statements, Function.comp_def, Statement.guard?]
  have hactions : (a.block.body "ACTIONS").value.filterMap Statement.action? = a.actions := by
    rw [value_body_block hs.exprs]
    simp [statements, Function.comp_def, Statement.action?]
  rw [Block.value_automation, htype, Option.map_some, htrigger, hcondition, hguards, hactions]
  rfl

end Automation

/-! ## The blocks are saved -/

theorem Handle.isSaved_block (h : Handle) : h.block.IsSaved :=
  .of_fields (by simp [block, Json.isReadable, Json.reread]) rfl rfl

theorem Constant.isSaved_block {c : Constant} (hc : c.isFinite) : c.block.IsSaved := by
  refine .of_fields ?_ (by cases c <;> rfl) (by cases c <;> rfl)
  cases c with
  | number x =>
    have hx : x.isFinite := hc
    simp [block, Json.isReadable, Json.reread, hx]
  | _ => simp [block, Json.isReadable, Json.reread]

namespace Expr

mutual

theorem isSaved_block : (e : Expr) → areFinite e.nodes → e.block.IsSaved
  | constant c, hf => by
    rw [block]
    exact c.isSaved_block (by simpa [nodes, areFinite] using hf)
  | device h, _ => by
    rw [block]
    exact h.isSaved_block
  | event name, _ => by
    rw [block]
    exact .of_fields (by simp) rfl rfl
  | call f arguments, hf => by
    rw [block]
    exact .of_plugged (by simp) rfl
      (isSaved_argumentBlocks arguments (areFinite_mono hf (List.subset_cons_self _ _))) rfl
  | binary op left right, hf => by
    have hl := isSaved_optionBlock left (areFinite_mono hf (by simp [nodes]))
    have hr := isSaved_optionBlock right (areFinite_mono hf (by simp [nodes]))
    rw [block]
    exact .of_plugged (by simp [Json.isReadable, Json.reread]) rfl (by simpa using ⟨hl, hr⟩) rfl
  | negation operand, hf => by
    have h := isSaved_optionBlock operand (areFinite_mono hf (List.subset_cons_self _ _))
    rw [block]
    exact .of_plugged (by simp) rfl (by simpa using h) rfl

theorem isSaved_optionBlock : (a : Option Expr) → areFinite (optionNodes a) →
    ∀ b, optionBlock a = some b → b.IsSaved
  | some e, hf, _, hb => Option.some.inj hb ▸ isSaved_block e hf
  | none, _, _, hb => by cases hb

theorem isSaved_argumentBlocks : (arguments : List (Option Expr)) →
    areFinite (argumentNodes arguments) →
    ∀ o ∈ argumentBlocks arguments, ∀ b, o = some b → b.IsSaved
  | [], _ => by simp [argumentBlocks]
  | a :: rest, hf => by
    rw [argumentBlocks, List.forall_mem_cons]
    exact ⟨isSaved_optionBlock a (areFinite_mono hf (by simp [argumentNodes])),
      isSaved_argumentBlocks rest (areFinite_mono hf (by simp [argumentNodes]))⟩

end

end Expr

theorem Trigger.isSaved_block {t : Trigger} {b : Block} (hb : t.block = some b) : b.IsSaved := by
  cases t with
  | event e =>
    obtain rfl := Option.some.inj hb
    exact .of_fields (by simp) rfl rfl
  | deviceEvent e h =>
    obtain rfl := Option.some.inj hb
    exact .of_plugged (by simp) rfl (by simpa using h.isSaved_block) rfl
  | time t => cases hb

/-- A chain is saved if each of its blocks has one expression plugged into it, and this is saved. -/
theorem Block.isSaved_follow {bs : List Block} (h : ∀ b ∈ bs, b.fields = [] ∧ ∃ name o,
      b.inputs = plugged [name] [o] ∧ ∀ c, o = some c → c.IsSaved) :
    ∀ c, follow bs = some c → c.IsSaved := by
  induction bs with
  | nil =>
    intro c hc
    cases hc
  | cons b rest ih =>
    intro c hc
    obtain rfl := Option.some.inj hc
    obtain ⟨⟨hfields, name, o, hinputs, ho⟩, hrest⟩ := List.forall_mem_cons.1 h
    exact .of_parts (by simp [hfields]) hinputs (by simpa using ho) rfl (ih hrest)

namespace Automation

theorem isSaved_block {a : Automation} (hf : a.isFinite) : a.block.IsSaved := by
  have hcondition := Expr.isSaved_optionBlock a.condition
    (Expr.areFinite_mono hf (nodes_condition_subset a))
  have htrigger (b : Block) (hb : a.trigger.bind Trigger.block = some b) : b.IsSaved := by
    obtain ⟨t, -, hb⟩ := Option.bind_eq_some_iff.1 hb
    exact Trigger.isSaved_block hb
  have hbody : ∀ b, Block.follow (a.statements.map Statement.block) = some b → b.IsSaved := by
    apply Block.isSaved_follow
    rw [List.forall_mem_map]
    intro s hs
    have hexpr := Expr.isSaved_optionBlock s.expr
      (Expr.areFinite_mono hf (nodes_statement_subset hs))
    cases s <;> exact ⟨rfl, _, _, rfl, hexpr⟩
  refine .of_plugged ?_ rfl (by simpa using ⟨htrigger, hcondition, hbody⟩) rfl
  have htyped : (textOrNull (a.trigger.bind Trigger.typed)).isReadable
      ∧ (textOrNull (a.trigger.bind Trigger.typed)).reread
        = textOrNull (a.trigger.bind Trigger.typed) := by
    cases a.trigger.bind Trigger.typed <;> exact ⟨rfl, rfl⟩
  simpa [block, Json.isReadable, Json.reread] using htyped

/-- Blocks stand for automations of the editor's shape, and for every one of them whose numbers can
be saved. -/
theorem image_of_blocks (a : Automation) :
    (∀ b : Block, b.automation.value = some a → a.EditorShaped)
      ∧ (a.EditorShaped → a.isFinite → ∃ b : Block, b.IsSaved ∧ b.automation.value = some a) :=
  ⟨fun _ => Block.editorShaped_automation,
    fun hs hf => ⟨a.block, isSaved_block hf, value_block hs⟩⟩

/-- An automation with a device, a number and inputs that are left open. -/
theorem image_of_blocks_motion :
    let lamp : Handle := ⟨"hue", "lamp@1"⟩
    let a : Automation := {
      id := some "b7"
      name := "Night"
      trigger := some (.deviceEvent "Motion" lamp)
      condition := some (.negation none)
      guards := [⟨some (.binary .lesser (some (.call .getDeviceState [some (.device lamp)]))
        (some (.number (.ofInt 21))))⟩, ⟨none⟩]
      actions := [⟨some (.call .setDeviceTemperature [none, none])⟩] }
    a.EditorShaped ∧ ∃ b : Block, b.IsSaved ∧ b.automation.value = some a := by
  intro lamp a
  obtain ⟨b, hb, hvalue⟩ := (image_of_blocks a).2 (by decide) (by decide)
  exact ⟨(image_of_blocks a).1 b hvalue, b, hb, hvalue⟩

end Automation
end HomeScript
