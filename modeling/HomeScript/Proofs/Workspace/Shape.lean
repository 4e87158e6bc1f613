import HomeScript.Proofs.Automation.RoundTrip
import HomeScript.Proofs.Workspace.Value

/-! # The shape of decoded automations

Blocks stand for automations of one shape only: events set automations off and are no values, every
slot of a function has its input, a device can be told from its text, and the date and the time of
an event are not events.
-/

namespace HomeScript

/-! ## Shapes -/

namespace Expr

/-- Whether there is a kind of block for an expression, whatever the expressions within it are. -/
def HasBlock : Expr → Prop
  | device h => h.IsWellFormed
  | event _ => False
  | call f arguments => arguments.length = f.slots.length
  | _ => True

instance : DecidablePred HasBlock
  | device h => inferInstanceAs (Decidable h.IsWellFormed)
  | event _ => .isFalse id
  | call f arguments => inferInstanceAs (Decidable (arguments.length = f.slots.length))
  | constant _ | binary _ _ _ | negation _ => .isTrue trivial

def EditorShaped (es : List Expr) : Prop :=
  ∀ e ∈ es, e.HasBlock

instance : DecidablePred EditorShaped :=
  fun es => inferInstanceAs (Decidable (∀ e ∈ es, e.HasBlock))

namespace EditorShaped
variable {es fs : List Expr}

theorem mono (h : EditorShaped es) (hs : fs ⊆ es) : EditorShaped fs :=
  fun e he => h e (hs he)

theorem handles (h : EditorShaped es) : HandlesWellFormed es :=
  fun d hd => h (device d) hd

theorem names (h : EditorShaped es) : NamesOnOneLine es :=
  fun name hn => (h (event name) hn).elim

end EditorShaped

end Expr

/-- The events that the editor takes for values. -/
def valueEvents : List String :=
  ["date", "time"]

def Trigger.EditorShaped : Trigger → Prop
  | event e => e ∉ valueEvents
  | deviceEvent e h => e ∉ valueEvents ∧ h.IsWellFormed
  | time _ => True

instance : DecidablePred Trigger.EditorShaped
  | .event e => inferInstanceAs (Decidable (e ∉ valueEvents))
  | .deviceEvent e h => inferInstanceAs (Decidable (e ∉ valueEvents ∧ h.IsWellFormed))
  | .time _ => .isTrue trivial

namespace Automation

structure EditorShaped (a : Automation) : Prop where
  trigger : ∀ t, a.trigger = some t → t.EditorShaped
  exprs : Expr.EditorShaped (a.exprs.flatMap Expr.nodes)

theorem editorShaped_iff (a : Automation) : a.EditorShaped
    ↔ (∀ t ∈ a.trigger, t.EditorShaped) ∧ Expr.EditorShaped (a.exprs.flatMap Expr.nodes) :=
  ⟨fun h => ⟨h.trigger, h.exprs⟩, fun h => ⟨h.1, h.2⟩⟩

instance : DecidablePred EditorShaped :=
  fun a => decidable_of_iff' _ a.editorShaped_iff

theorem EditorShaped.handles {a : Automation} (h : a.EditorShaped) : a.HandlesWellFormed where
  trigger _ _ ht := (h.trigger _ ht).2
  exprs := h.exprs.handles

end Automation

/-! ## Handles -/

namespace Block

theorem isWellFormed_of_device {b : Block} {h : Handle} (hd : b.device.value = some h) :
    h.IsWellFormed := by
  rw [value_device, Option.bind_eq_some_iff] at hd
  obtain ⟨e | d, hh, hd⟩ := hd
  · cases hd
  obtain rfl := Option.some.inj hd
  unfold handle at hh
  split at hh
  · simp only [Option.bind_eq_bind, Option.bind_eq_some_iff, Option.pure_def,
      Option.some.injEq] at hh
    obtain ⟨_, -, _, -, hp⟩ := hh
    exact Handle.isWellFormed_of_ofParts hp
  · obtain ⟨_, -, hp⟩ := Option.map_eq_some_iff.1 hh
    exact Handle.isWellFormed_of_parse hp

theorem isWellFormed_of_deviceAt {b : Block} {name : String} {h : Handle}
    (hd : (b.deviceAt name).value = some h) : h.IsWellFormed := by
  rw [value_deviceAt, Option.bind_eq_some_iff] at hd
  obtain ⟨c, -, hd⟩ := hd
  exact isWellFormed_of_device hd

/-! ## Expressions -/

/-- Whether all that is plugged into a block as values has some property. -/
def AllInputs (motive : Block → Expr → Prop) (b : Block) : Prop :=
  ∀ ⦃name c e⦄, b.input name = some c → c.expr.value = some e → motive c e

/-- The expressions of blocks, from those of the blocks that are plugged into them. -/
theorem expr_induction {motive : Block → Expr → Prop}
    (constant : ∀ b c, motive b (.constant c))
    (device : ∀ b h, h.IsWellFormed → motive b (.device h))
    (origin : ∀ b (h : Option Handle), motive b
      (.binary .equals (some (.call .getDevice [])) (h.map fun h => .string h.text)))
    (call : ∀ b f, AllInputs motive b →
      motive b (.call f (f.inputs.map fun name => (b.exprAt name).value)))
    (binary : ∀ b op left right, AllInputs motive b →
      motive b (.binary op (b.exprAt left).value (b.exprAt right).value))
    (negation : ∀ b name, AllInputs motive b → motive b (.negation (b.exprAt name).value))
    (b : Block) (e : Expr) (h : b.expr.value = some e) : motive b e := by
  have ih : AllInputs motive b := by
    intro name c e hc he
    have := sizeOf_input hc
    exact expr_induction constant device origin call binary negation c e he
  rw [value_expr] at h
  split at h
  case h_5 =>
    obtain ⟨op, -, rfl⟩ := Option.map_eq_some_iff.1 h
    exact binary b op "LEFT" "RIGHT" ih
  case h_10 =>
    obtain ⟨d, hd, rfl⟩ := Option.map_eq_some_iff.1 h
    exact device b d (isWellFormed_of_device hd)
  all_goals obtain rfl := Option.some.inj h
  case h_6 => exact binary b .and "CONDITION1" "CONDITION2" ih
  case h_7 => exact negation b "VALUE" ih
  case h_8 => exact origin b _
  case h_9 f _ => exact call b f ih
  all_goals exact constant b _
termination_by sizeOf b

theorem exists_input_of_exprAt {b : Block} {name : String} {e : Expr}
    (h : (b.exprAt name).value = some e) : ∃ c, b.input name = some c ∧ c.expr.value = some e := by
  rwa [value_exprAt, Option.bind_eq_some_iff] at h

theorem AllInputs.editorShaped {b : Block} (name : String)
    (h : b.AllInputs fun _ e => Expr.EditorShaped e.nodes) :
    Expr.EditorShaped (Expr.optionNodes (b.exprAt name).value) := by
  cases he : (b.exprAt name).value with
  | none => simp [Expr.EditorShaped, Expr.optionNodes]
  | some e =>
    obtain ⟨c, hc, he⟩ := exists_input_of_exprAt he
    exact h hc he

theorem editorShaped_expr {b : Block} {e : Expr} (h : b.expr.value = some e) :
    Expr.EditorShaped e.nodes := by
  refine expr_induction (motive := fun _ e => Expr.EditorShaped e.nodes)
    ?constant ?device ?origin ?call ?binary ?negation b e h
  case constant =>
    intro b c
    simp [Expr.EditorShaped, Expr.nodes, Expr.HasBlock]
  case device =>
    intro b h hw
    simpa [Expr.EditorShaped, Expr.nodes, Expr.HasBlock] using hw
  case origin =>
    rintro b (_ | h) <;>
      simp [Expr.EditorShaped, Expr.nodes, Expr.optionNodes, Expr.argumentNodes, Expr.string,
        Expr.HasBlock, Builtin.slots]
  case call =>
    intro b f ih
    rw [Expr.nodes, Expr.EditorShaped, List.forall_mem_cons]
    constructor
    · rw [Expr.HasBlock, List.length_map, Builtin.length_inputs]
    · simp only [Expr.argumentNodes_eq, List.flatMap_map, List.forall_mem_flatMap]
      intro name _
      exact ih.editorShaped name
  case binary =>
    intro b op left right ih
    rw [Expr.nodes, Expr.EditorShaped, List.forall_mem_cons, List.forall_mem_append]
    exact ⟨trivial, ih.editorShaped left, ih.editorShaped right⟩
  case negation =>
    intro b name ih
    rw [Expr.nodes, Expr.EditorShaped, List.forall_mem_cons]
    exact ⟨trivial, ih.editorShaped name⟩

theorem editorShaped_exprAt (b : Block) (name : String) :
    Expr.EditorShaped (Expr.optionNodes (b.exprAt name).value) :=
  AllInputs.editorShaped name fun _ _ _ _ => editorShaped_expr

end Block

/-! ## Statements -/

namespace Statement

/-- The expression of a statement. -/
def expr : Statement → Option Expr
  | guard g => g.expr
  | action a => a.call

theorem expr_of_guard? {s : Statement} {g : Guard} (h : s.guard? = some g) : s.expr = g.expr := by
  cases s <;> cases h
  rfl

theorem expr_of_action? {s : Statement} {c : Action} (h : s.action? = some c) :
    s.expr = c.call := by
  cases s <;> cases h
  rfl

end Statement

theorem StatementBlock.slots_of_deviceAction {type : String} {f : Builtin}
    (h : ofType type = .deviceAction f) : f.slots = [.string] := by
  unfold ofType at h
  cases hl : named.lookup type with
  | none => simp [hl] at h
  | some s =>
    obtain ⟨before, after, hnamed, -⟩ := List.lookup_eq_some_iff.1 hl
    have hmem : (type, s) ∈ named := by simp [hnamed]
    rw [hl, Option.getD_some] at h
    subst h
    simp only [named, List.mem_cons, Prod.mk.injEq, reduceCtorEq, and_false, deviceAction.injEq,
      List.not_mem_nil, or_false, false_or] at hmem
    rcases hmem with ⟨-, rfl⟩ | ⟨-, rfl⟩ <;> rfl

namespace Block

theorem editorShaped_deviceCall {f : Builtin} (hf : f.slots = [.string]) {h : Option Handle}
    (hw : ∀ d, h = some d → d.IsWellFormed) :
    Expr.EditorShaped (Expr.nodes (.call f [h.map Expr.device])) := by
  cases h with
  | none => simp [Expr.EditorShaped, Expr.nodes, Expr.argumentNodes, Expr.optionNodes,
      Expr.HasBlock, hf]
  | some d => simp [Expr.EditorShaped, Expr.nodes, Expr.argumentNodes, Expr.optionNodes,
      Expr.HasBlock, hf, hw d rfl]

theorem editorShaped_statement {b : Block} {s : Statement} (h : b.statement.value = some s) :
    Expr.EditorShaped (Expr.optionNodes s.expr) := by
  rw [value_statement] at h
  split at h
  · obtain rfl := Option.some.inj h
    exact editorShaped_exprAt b "CONDITION"
  · obtain rfl := Option.some.inj h
    exact editorShaped_exprAt b "ACTION"
  · next f hf =>
    obtain rfl := Option.some.inj h
    exact editorShaped_deviceCall (StatementBlock.slots_of_deviceAction hf)
      fun d => isWellFormed_of_deviceAt
  · cases h

theorem exists_of_mem_body {b : Block} {name : String} {s : Statement}
    (h : s ∈ (b.body name).value) :
    ∃ c d, b.input name = some c ∧ d ∈ c.chain ∧ d.statement.value = some s := by
  rw [value_body, List.mem_filterMap] at h
  obtain ⟨d, hd, hs⟩ := h
  cases hc : b.input name with
  | none => simp [hc] at hd
  | some c => exact ⟨c, d, rfl, by simpa [hc] using hd, hs⟩

/-! ## Automations -/

theorem not_mem_valueEvents {b : Block} {e : String} (h : b.event = some e) :
    e ∉ valueEvents := by
  unfold event at h
  split at h
  · cases h
  · next hn =>
    rw [afterWord_eq_some_iff] at h
    intro he
    simp only [valueEvents, List.mem_cons, List.not_mem_nil, or_false] at he
    rcases he with rfl | rfl <;> rw [h] at hn <;> exact absurd hn (by decide)

theorem editorShaped_trigger {b : Block} {t : Trigger} (h : b.trigger.value = some t) :
    t.EditorShaped := by
  rw [value_trigger, Option.map_eq_some_iff] at h
  obtain ⟨e, he, rfl⟩ := h
  have hname := not_mem_valueEvents he
  split
  · next d hd => exact ⟨hname, isWellFormed_of_deviceAt hd⟩
  · exact hname

/-- The expressions of an automation are the condition of its block and those of the statements. -/
theorem mem_exprs {b : Block} {a : Automation} (h : b.automation.value = some a) {e : Expr}
    (he : e ∈ a.exprs) : (b.exprAt "CONDITIONS").value = some e
      ∨ ∃ s ∈ (b.body "ACTIONS").value, s.expr = some e := by
  rw [value_automation, Option.map_eq_some_iff] at h
  obtain ⟨type, -, rfl⟩ := h
  simp only [Automation.exprs, List.mem_append, Option.mem_toList, List.mem_filterMap] at he
  rcases he with (he | ⟨g, ⟨s, hs, hg⟩, he⟩) | ⟨c, ⟨s, hs, hc⟩, he⟩
  · exact .inl he
  · exact .inr ⟨s, hs, (Statement.expr_of_guard? hg).trans he⟩
  · exact .inr ⟨s, hs, (Statement.expr_of_action? hc).trans he⟩

theorem editorShaped_automation {b : Block} {a : Automation} (h : b.automation.value = some a) :
    a.EditorShaped where
  trigger := by
    rw [value_automation, Option.map_eq_some_iff] at h
    obtain ⟨type, -, rfl⟩ := h
    intro t ht
    cases type with
    | onEvent =>
      obtain ⟨c, -, ht⟩ := Option.bind_eq_some_iff.1 ((value_triggerAt b "EVENT").symm.trans ht)
      exact editorShaped_trigger ht
    | atTime =>
      obtain ⟨_, -, rfl⟩ := Option.map_eq_some_iff.1 ht
      trivial
  exprs := by
    intro n hn
    obtain ⟨e, he, hn⟩ := List.mem_flatMap.1 hn
    rcases mem_exprs h he with he | ⟨s, hs, he⟩
    · exact editorShaped_exprAt b "CONDITIONS" n (by rwa [he])
    · obtain ⟨c, d, -, -, hd⟩ := exists_of_mem_body hs
      exact editorShaped_statement hd n (by rwa [he])

end Block
end HomeScript
