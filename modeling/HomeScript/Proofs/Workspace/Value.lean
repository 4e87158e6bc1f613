import Mathlib.Data.List.Basic
import HomeScript.Workspace.Decode

/-! # What blocks stand for

The expression, statement, trigger and automation of a block, without the notices of reading it:
one equation for each of them.
-/

namespace HomeScript

namespace Noticed

theorem value_mapM {α β : Type} (f : α → Noticed β) (xs : List α) :
    (xs.mapM f).value = xs.map fun x => (f x).value := by
  induction xs with
  | nil => rfl
  | cons x xs ih => rw [List.mapM_cons, value_bind, value_bind, ih]; rfl

end Noticed

theorem afterWord_eq_some_iff {word text rest : String} :
    afterWord word text = some rest ↔ text = word ++ rest := by
  have hiff : word.toList.isPrefixOf text.toList ↔ word.toList <+: text.toList :=
    List.isPrefixOf_iff_prefix
  have hdrop (tail : List Char) : (word.toList ++ tail).drop word.length = tail := by
    rw [← String.length_toList, List.drop_left]
  unfold afterWord
  constructor
  · intro h
    split at h
    · next hp =>
      obtain ⟨tail, ht⟩ := hiff.1 hp
      obtain rfl := Option.some.inj h
      rw [← String.toList_inj, ← ht, hdrop]
      simp
    · cases h
  · rintro rfl
    rw [if_pos (hiff.2 ⟨rest.toList, by simp⟩), String.toList_append, hdrop, String.ofList_toList]

namespace Block

theorem value_device (b : Block) : b.device.value = b.handle.bind Except.toOption := by
  unfold device
  rcases b.handle with _ | e | h <;> rfl

theorem value_deviceAt (b : Block) (name : String) :
    (b.deviceAt name).value = (b.input name).bind fun c => c.device.value := by
  unfold deviceAt
  cases b.input name <;> rfl

theorem value_exprAt (b : Block) (name : String) :
    (b.exprAt name).value = (b.input name).bind fun c => c.expr.value := by
  unfold exprAt
  cases b.input name <;> rfl

theorem inner_expr (b : Block) (name : String) :
    (match b.inner name with
      | some c => c.1.expr
      | none => return none) = b.exprAt name := by
  unfold exprAt
  rw [← map_inner]
  cases b.inner name <;> rfl

theorem value_expr (b : Block) : b.expr.value =
    match ValueBlock.ofType b.type with
    | .string => some (.string ((b.field "VALUE").getD ""))
    | .number => some (.number (((b.fieldValue "VALUE").bind Json.numberField).getD .zero))
    | .boolean => some (.boolean (b.field "VALUE" = some "true"))
    | .null => some .null
    | .operation => ((b.field "OP").bind Operator.ofToken).map fun op =>
      .binary op (b.exprAt "LEFT").value (b.exprAt "RIGHT").value
    | .conjunction =>
      some (.binary .and (b.exprAt "CONDITION1").value (b.exprAt "CONDITION2").value)
    | .negation => some (.negation (b.exprAt "VALUE").value)
    | .origin => some (.binary .equals (some (.call .getDevice []))
      ((b.deviceAt "NAME").value.map fun h => .string h.text))
    | .builtin f => some (.call f (f.inputs.map fun name => (b.exprAt name).value))
    | .other => b.device.value.map .device := by
  rw [expr]
  simp only [← inner_expr]
  cases ValueBlock.ofType b.type with
  | operation => cases (b.field "OP").bind Operator.ofToken <;> rfl
  | builtin f => rw [Noticed.value_bind, Noticed.value_mapM]; rfl
  | other =>
    rw [Noticed.value_bind]
    cases b.device.value <;> rfl
  | _ => rfl

/-! ## Statements -/

theorem value_statement (b : Block) : b.statement.value =
    match StatementBlock.ofType b.type with
    | .guard => some (.guard ⟨(b.exprAt "CONDITION").value⟩)
    | .action => some (.action ⟨(b.exprAt "ACTION").value⟩)
    | .deviceAction f =>
      some (.action ⟨some (.call f [(b.deviceAt "NAME").value.map Expr.device])⟩)
    | .other => none := by
  unfold statement
  cases StatementBlock.ofType b.type <;> rfl

theorem value_statements (bs : List Block) :
    (statements bs).value = bs.filterMap fun b => b.statement.value := by
  induction bs with
  | nil => rfl
  | cons b rest ih =>
    rw [statements, Noticed.value_bind, Noticed.value_bind, ih]
    cases h : b.statement.value <;> simp [h]

theorem chain_eq (b : Block) : b.chain = b :: (b.nextBlock.map chain).getD [] := by
  rw [chain]
  split
  · next c hc => simp [hc]
  · next hc => simp [hc]

theorem value_body (b : Block) (name : String) : (b.body name).value =
    (((b.input name).map chain).getD []).filterMap fun c => c.statement.value :=
  value_statements _

/-! ## Automations -/

theorem value_trigger (b : Block) : b.trigger.value = b.event.map fun e =>
    match (b.deviceAt "DEVICE").value with
    | some h => .deviceEvent e h
    | none => .event e := by
  unfold trigger
  cases b.event with
  | none => rfl
  | some e =>
    dsimp only
    rw [Noticed.value_bind]
    cases (b.deviceAt "DEVICE").value <;> rfl

theorem value_triggerAt (b : Block) (name : String) :
    (b.triggerAt name).value = (b.input name).bind fun c => c.trigger.value := by
  unfold triggerAt
  cases b.input name <;> rfl

/-- What sets off the automation of a block of this kind. -/
def triggerAs (b : Block) : AutomationBlock → Option Trigger
  | .onEvent => (b.triggerAt "EVENT").value
  | .atTime => (b.field "TIME0").map Trigger.time

theorem value_automation (b : Block) : b.automation.value =
    (AutomationBlock.ofType b.type).map fun type => {
      id := b.id
      name := (b.field "NAME").getD ""
      trigger := b.triggerAs type
      condition := (b.exprAt "CONDITIONS").value
      guards := (b.body "ACTIONS").value.filterMap Statement.guard?
      actions := (b.body "ACTIONS").value.filterMap Statement.action? } := by
  unfold automation
  cases AutomationBlock.ofType b.type with
  | none => rfl
  | some type => cases type <;> rfl

end Block

namespace Workspace

theorem value_automationsOf (bs : List Block) :
    (automationsOf bs).value = bs.filterMap fun b => b.automation.value := by
  induction bs with
  | nil => rfl
  | cons b rest ih =>
    rw [automationsOf, Noticed.value_bind, List.filterMap_cons, ← ih]
    cases b.automation.value <;> rfl

theorem mem_automations_iff {w : Workspace} {a : Automation} :
    a ∈ w.automations.value ↔ ∃ b ∈ w.blocks, b.automation.value = some a := by
  rw [automations, value_automationsOf, List.mem_filterMap]

end Workspace
end HomeScript
