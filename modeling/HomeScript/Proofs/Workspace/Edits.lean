import HomeScript.Proofs.Workspace.Notices

/-! # Edits

An edit is made everywhere in a workspace: to each block once it has been made within it, and to
each connection. If it keeps what can be seen of each single block, and what counts at each
connection, then it keeps what can be seen of the workspace.
-/

namespace HomeScript

namespace Noticed
variable {α β : Type}

/-- What is looked at: a value with its notices, or the value alone. -/
inductive View where
  | everything
  | value

def seen (v : View) (x : Noticed α) : Noticed α :=
  match v with
  | .everything => x
  | .value => ⟨x.value, []⟩

theorem seen_bind (v : View) (x : Noticed α) (f : α → Noticed β) :
    (x >>= f).seen v = x.seen v >>= fun a => (f a).seen v := by
  cases v <;> rfl

theorem seen_bind_congr {v : View} {x y : Noticed α} {f g : α → Noticed β}
    (hx : x.seen v = y.seen v) (hf : ∀ a, (f a).seen v = (g a).seen v) :
    (x >>= f).seen v = (y >>= g).seen v := by
  rw [seen_bind, seen_bind, hx]
  simp only [hf]

theorem seen_mapM_congr {v : View} {f g : α → Noticed β} (h : ∀ a, (f a).seen v = (g a).seen v)
    (xs : List α) : (xs.mapM f).seen v = (xs.mapM g).seen v := by
  induction xs with
  | nil => rfl
  | cons x xs ih =>
    rw [List.mapM_cons, List.mapM_cons]
    exact seen_bind_congr (h x) fun y => seen_bind_congr ih fun ys => rfl

end Noticed

theorem lastNamed_map {α β : Type} (f : α → β) (name : String) (xs : List (String × α)) :
    lastNamed name (xs.map fun x => (x.1, f x.2)) = (lastNamed name xs).map f := by
  induction xs with
  | nil => rfl
  | cons x xs ih =>
    rw [List.map_cons, lastNamed, lastNamed, ih]
    cases lastNamed name xs with
    | some y => rfl
    | none => split <;> rfl

namespace Connection
variable {β γ : Type}

def map (f : β → γ) (c : Connection β) : Connection γ where
  block := c.block.map f
  shadow := c.shadow.map f

theorem target_map (f : β → γ) (c : Connection β) : (c.map f).target = c.target.map f := by
  obtain ⟨block | b, shadow⟩ := c <;> rfl

end Connection

/-! ## Edited blocks -/

structure Edit where
  block : Block → Block := id
  connection : Connection Block → Connection Block := id

namespace Block
variable (e : Edit)

mutual

def edited : Block → Block
  | ⟨type, id, fields, inputs, next⟩ =>
    e.block ⟨type, id, fields, editedInputs inputs, editedNext next⟩

def editedInputs : List (String × Connection Block) → List (String × Connection Block)
  | [] => []
  | (name, c) :: rest => (name, editedConnection c) :: editedInputs rest

def editedNext : Option (Connection Block) → Option (Connection Block)
  | some c => some (editedConnection c)
  | none => none

def editedConnection : Connection Block → Connection Block
  | ⟨block, shadow⟩ => e.connection ⟨editedOption block, editedOption shadow⟩

def editedOption : Option Block → Option Block
  | some b => some b.edited
  | none => none

end

theorem editedOption_eq (o : Option Block) : editedOption e o = o.map (edited e) := by
  cases o <;> rfl

theorem editedConnection_eq (c : Connection Block) :
    editedConnection e c = e.connection (c.map (edited e)) := by
  obtain ⟨block, shadow⟩ := c
  rw [editedConnection, editedOption_eq, editedOption_eq]
  rfl

theorem editedInputs_eq (inputs : List (String × Connection Block)) :
    editedInputs e inputs = inputs.map fun i => (i.1, editedConnection e i.2) := by
  induction inputs with
  | nil => rfl
  | cons i rest ih => rw [editedInputs, ih, List.map_cons]

theorem editedNext_eq (next : Option (Connection Block)) :
    editedNext e next = next.map (editedConnection e) := by
  cases next <;> rfl

/-- The block with the edit made within it, but not to the block itself. -/
def editedWithin (b : Block) : Block :=
  { b with
    inputs := b.inputs.map fun i => (i.1, editedConnection e i.2)
    next := b.next.map (editedConnection e) }

@[simp]
theorem type_editedWithin (b : Block) : (b.editedWithin e).type = b.type := rfl

@[simp]
theorem field_editedWithin (b : Block) : (b.editedWithin e).field = b.field := rfl

@[simp]
theorem event_editedWithin (b : Block) : (b.editedWithin e).event = b.event := rfl

theorem edited_eq (b : Block) : b.edited e = e.block (b.editedWithin e) := by
  obtain ⟨type, id, fields, inputs, next⟩ := b
  rw [edited, editedInputs_eq, editedNext_eq]
  rfl

end Block

def Workspace.edited (e : Edit) (w : Workspace) : Workspace :=
  ⟨w.blocks.map (Block.edited e)⟩

/-! ## Edits that are not seen -/

open Noticed

/-- What counts at a connection stays there, and no single block changes in what can be seen. -/
structure Edit.Keeps (v : View) (e : Edit) : Prop where
  target : ∀ c, (e.connection c).target = c.target
  nextBlock : ∀ b, (e.block b).nextBlock = b.nextBlock
  device : ∀ b, (e.block b).device.seen v = b.device.seen v
  expr : ∀ b, (e.block b).expr.seen v = b.expr.seen v
  trigger : ∀ b, (e.block b).trigger.seen v = b.trigger.seen v
  statement : ∀ b, (e.block b).statement.seen v = b.statement.seen v
  automation : ∀ b, (e.block b).automation.seen v = b.automation.seen v
  looseBlock : ∀ b,
    (tell (.looseBlock (e.block b).type)).seen v = (tell (.looseBlock b.type)).seen v

namespace Edit.Keeps
open Block
variable {v : View} {e : Edit} (h : e.Keeps v)
include h

theorem target_editedConnection (c : Connection Block) :
    (editedConnection e c).target = c.target.map (edited e) := by
  rw [editedConnection_eq, h.target, Connection.target_map]

theorem bind_target (o : Option (Connection Block)) :
    (o.map (editedConnection e)).bind Connection.target
      = (o.bind Connection.target).map (edited e) := by
  cases o with
  | none => rfl
  | some c => exact h.target_editedConnection c

theorem input_editedWithin (b : Block) (name : String) :
    (b.editedWithin e).input name = (b.input name).map (edited e) := by
  rw [input, editedWithin, lastNamed_map]
  exact h.bind_target _

theorem nextBlock_edited (b : Block) :
    (b.edited e).nextBlock = b.nextBlock.map (edited e) := by
  rw [edited_eq, h.nextBlock]
  exact h.bind_target _

theorem chain_edited (b : Block) : (b.edited e).chain = b.chain.map (edited e) := by
  rw [chain_eq, chain_eq b, h.nextBlock_edited, List.map_cons]
  cases hc : b.nextBlock with
  | none => rfl
  | some c =>
    have := sizeOf_nextBlock hc
    exact congrArg _ (chain_edited c)
termination_by sizeOf b

theorem device_edited (b : Block) : (b.edited e).device.seen v = b.device.seen v := by
  rw [edited_eq, h.device]
  rfl

/-- What is asked of the block at an input gives what it gave if the block does. -/
theorem asked_editedWithin {α : Type} {ask : Block → Noticed (Option α)} {b : Block}
    {name : String}
    (hask : ∀ c, b.input name = some c → (ask (c.edited e)).seen v = (ask c).seen v) :
    Noticed.seen v (match (b.editedWithin e).input name with
      | some c => ask c
      | none => return none)
    = Noticed.seen v (match b.input name with
      | some c => ask c
      | none => return none) := by
  rw [h.input_editedWithin]
  cases hb : b.input name with
  | none => rfl
  | some c => exact hask c hb

theorem deviceAt_editedWithin (b : Block) (name : String) :
    ((b.editedWithin e).deviceAt name).seen v = (b.deviceAt name).seen v :=
  h.asked_editedWithin fun c _ => h.device_edited c

theorem expr_edited (b : Block) : (b.edited e).expr.seen v = b.expr.seen v := by
  have hinput (name : String) :
      ((b.editedWithin e).exprAt name).seen v = (b.exprAt name).seen v := by
    apply h.asked_editedWithin
    intro c hc
    have := sizeOf_input hc
    exact expr_edited c
  rw [edited_eq, h.expr, expr_eq, expr_eq b, type_editedWithin]
  cases ValueBlock.ofType b.type with
  | operation =>
    rw [field_editedWithin]
    cases (b.field "OP").bind Operator.ofToken with
    | none => rfl
    | some op =>
      exact seen_bind_congr (hinput _) fun _ => seen_bind_congr (hinput _) fun _ => rfl
  | conjunction =>
    exact seen_bind_congr (hinput _) fun _ => seen_bind_congr (hinput _) fun _ => rfl
  | negation => exact seen_bind_congr (hinput _) fun _ => rfl
  | origin => exact seen_bind_congr (h.deviceAt_editedWithin b "NAME") fun _ => rfl
  | builtin f => exact seen_bind_congr (seen_mapM_congr hinput f.inputs) fun _ => rfl
  | string | number | boolean | null | other => rfl
termination_by sizeOf b

theorem exprAt_editedWithin (b : Block) (name : String) :
    ((b.editedWithin e).exprAt name).seen v = (b.exprAt name).seen v :=
  h.asked_editedWithin fun c _ => h.expr_edited c

theorem trigger_edited (b : Block) : (b.edited e).trigger.seen v = b.trigger.seen v := by
  rw [edited_eq, h.trigger]
  unfold Block.trigger
  rw [event_editedWithin]
  cases b.event with
  | none => rfl
  | some name => exact seen_bind_congr (h.deviceAt_editedWithin b "DEVICE") fun _ => rfl

theorem triggerAt_editedWithin (b : Block) (name : String) :
    ((b.editedWithin e).triggerAt name).seen v = (b.triggerAt name).seen v :=
  h.asked_editedWithin fun c _ => h.trigger_edited c

theorem statement_edited (b : Block) : (b.edited e).statement.seen v = b.statement.seen v := by
  rw [edited_eq, h.statement]
  unfold Block.statement
  rw [type_editedWithin]
  cases StatementBlock.ofType b.type with
  | guard => exact seen_bind_congr (h.exprAt_editedWithin b "CONDITION") fun _ => rfl
  | action => exact seen_bind_congr (h.exprAt_editedWithin b "ACTION") fun _ => rfl
  | deviceAction f => exact seen_bind_congr (h.deviceAt_editedWithin b "NAME") fun _ => rfl
  | other => rfl

theorem statements_edited (bs : List Block) :
    (statements (bs.map (edited e))).seen v = (statements bs).seen v := by
  induction bs with
  | nil => rfl
  | cons b rest ih =>
    rw [List.map_cons, statements, statements]
    exact seen_bind_congr (h.statement_edited b) fun _ => seen_bind_congr ih fun _ => rfl

theorem body_editedWithin (b : Block) (name : String) :
    ((b.editedWithin e).body name).seen v = (b.body name).seen v := by
  unfold body
  rw [h.input_editedWithin]
  cases b.input name with
  | none => rfl
  | some c =>
    rw [Option.map_some, Option.map_some, Option.map_some, Option.getD_some, Option.getD_some,
      h.chain_edited, h.statements_edited]

theorem automation_edited (b : Block) : (b.edited e).automation.seen v = b.automation.seen v := by
  rw [edited_eq, h.automation]
  unfold Block.automation
  rw [type_editedWithin]
  cases AutomationBlock.ofType b.type with
  | none => rfl
  | some type =>
    have hrest {build : List Statement → Option Expr → Automation} :
        Noticed.seen v (do
          let ss ← (b.editedWithin e).body "ACTIONS"
          return some (build ss (← (b.editedWithin e).exprAt "CONDITIONS")))
        = Noticed.seen v (do
          let ss ← b.body "ACTIONS"
          return some (build ss (← b.exprAt "CONDITIONS"))) :=
      seen_bind_congr (h.body_editedWithin b "ACTIONS") fun _ =>
        seen_bind_congr (h.exprAt_editedWithin b "CONDITIONS") fun _ => rfl
    cases type with
    | onEvent => exact seen_bind_congr (h.triggerAt_editedWithin b "EVENT") fun _ => hrest
    | atTime => exact seen_bind_congr rfl fun _ => hrest

theorem automations_edited (w : Workspace) :
    (w.edited e).automations.seen v = w.automations.seen v := by
  have hblocks (bs : List Block) : (Workspace.automationsOf (bs.map (edited e))).seen v
      = (Workspace.automationsOf bs).seen v := by
    induction bs with
    | nil => rfl
    | cons b rest ih =>
      have hloose : (tell (.looseBlock (b.edited e).type)).seen v
          = (tell (.looseBlock b.type)).seen v := by
        rw [edited_eq]
        exact h.looseBlock _
      rw [List.map_cons, Workspace.automationsOf, Workspace.automationsOf]
      refine seen_bind_congr (h.automation_edited b) ?_
      rintro (_ | a)
      · exact seen_bind_congr hloose fun _ => ih
      · exact seen_bind_congr ih fun _ => rfl
  exact hblocks w.blocks

end Edit.Keeps
end HomeScript
