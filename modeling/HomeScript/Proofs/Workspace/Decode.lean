import HomeScript.Proofs.Workspace.Shape
import HomeScript.Proofs.Workspace.Wire

/-! # What is decoded can be written

An expression and an automation are nested only a little deeper in their written form than the
blocks have been, so that a decoded program can be read back from its text.
-/

namespace HomeScript

namespace Expr

theorem argumentsToJson_eq (arguments : List (Option Expr)) :
    argumentsToJson arguments = arguments.map optionToJson := by
  induction arguments with
  | nil => rfl
  | cons a rest ih => rw [argumentsToJson, ih, List.map_cons]

end Expr

namespace Block

/-! ## Expressions -/

theorem AllInputs.depth {b : Block} {n : ℕ} (name : String) (hb : b.ComesFrom n)
    (h : b.AllInputs fun c e => ∀ n, c.ComesFrom n → e.toJson.depth ≤ n + 2) :
    (Expr.optionToJson (b.exprAt name).value).depth + 1 ≤ n := by
  cases he : (b.exprAt name).value with
  | none => exact hb.pos
  | some e =>
    obtain ⟨c, hc, he⟩ := exists_input_of_exprAt he
    obtain ⟨m, hm, hcm⟩ := hb.input hc
    have : e.toJson.depth ≤ m + 2 := h hc he m hcm
    rw [Expr.optionToJson]
    omega

/-- In its written form, an expression is nested at most two levels deeper than its block. -/
theorem depth_expr {b : Block} {e : Expr} (h : b.expr.value = some e) :
    ∀ n, b.ComesFrom n → e.toJson.depth ≤ n + 2 := by
  refine expr_induction (motive := fun b e => ∀ n, b.ComesFrom n → e.toJson.depth ≤ n + 2)
    ?_ ?_ ?_ ?_ ?_ ?_ b e h
  · intro b c n _
    have : c.toJson.depth = 1 := by cases c <;> rfl
    simp [Expr.toJson, Json.depth, Json.depthMembers, this]
  · intro b h hw n _
    simp [Expr.toJson, Json.depth, Json.depthMembers, Handle.toJson]
  · intro b h n hb
    have := hb.pos
    cases h <;>
      simp [Expr.toJson, Expr.optionToJson, Expr.argumentsToJson, Expr.string, Json.depth,
        Json.depthMembers, Json.depthEach, Operator.toJson, Builtin.toJson, Constant.toJson] <;>
      omega
  · intro b f ih n hb
    have hargs : Json.depthEach (Expr.argumentsToJson
        (f.inputs.map fun name => (b.exprAt name).value)) ≤ n := by
      simp only [Expr.argumentsToJson_eq, Json.depthEach_le_iff, List.forall_mem_map]
      intro name _
      have := ih.depth name hb
      omega
    simp only [Expr.toJson, Json.depth, Json.depthMembers, Builtin.toJson]
    omega
  · intro b op left right ih n hb
    have hl := ih.depth left hb
    have hr := ih.depth right hb
    simp only [Expr.toJson, Json.depth, Json.depthMembers, Operator.toJson]
    omega
  · intro b name ih n hb
    have := ih.depth name hb
    simp only [Expr.toJson, Json.depth, Json.depthMembers]
    omega

/-! ## Statements -/

theorem comesFrom_of_mem_chain {b c : Block} {n : ℕ} (hb : b.ComesFrom n) (hc : c ∈ b.chain) :
    c.ComesFrom n := by
  rw [chain_eq, List.mem_cons] at hc
  rcases hc with rfl | hc
  · exact hb
  · cases hd : b.nextBlock with
    | none => simp [hd] at hc
    | some d =>
      rw [hd, Option.map_some, Option.getD_some] at hc
      have := sizeOf_nextBlock hd
      obtain ⟨m, hm, hdm⟩ := hb.next hd
      exact (comesFrom_of_mem_chain hdm hc).mono (by omega)
termination_by sizeOf b

theorem depth_exprAt {b : Block} {n : ℕ} (hb : b.ComesFrom n) (name : String) :
    (Expr.optionToJson (b.exprAt name).value).depth ≤ n := by
  have := AllInputs.depth name hb fun _ _ _ _ => depth_expr
  omega

theorem depth_deviceCall (f : Builtin) (h : Option Handle) :
    (Expr.toJson (.call f [h.map Expr.device])).depth ≤ 3 := by
  cases h <;> simp [Expr.optionToJson, Expr.toJson, Expr.argumentsToJson, Json.depth,
    Json.depthMembers, Json.depthEach, Builtin.toJson, Handle.toJson]

theorem depth_statement {b : Block} {n : ℕ} {s : Statement} (hb : b.ComesFrom n)
    (h : b.statement.value = some s) : (Expr.optionToJson s.expr).depth ≤ n + 2 := by
  rw [value_statement] at h
  split at h
  · obtain rfl := Option.some.inj h
    exact (depth_exprAt hb "CONDITION").trans (by omega)
  · obtain rfl := Option.some.inj h
    exact (depth_exprAt hb "ACTION").trans (by omega)
  · next f _ =>
    obtain rfl := Option.some.inj h
    have hpos := hb.pos
    exact (depth_deviceCall f _).trans (by omega)
  · cases h

theorem depth_body {b : Block} {n : ℕ} {name : String} {s : Statement} (hb : b.ComesFrom n)
    (h : s ∈ (b.body name).value) : (Expr.optionToJson s.expr).depth + 1 ≤ n := by
  obtain ⟨c, d, hc, hd, hs⟩ := exists_of_mem_body h
  obtain ⟨m, hm, hcm⟩ := hb.input hc
  have := depth_statement (comesFrom_of_mem_chain hcm hd) hs
  omega

end Block

/-! ## Automations -/

theorem Trigger.depth_toJson_le_one (t : Option Trigger) :
    ((t.map Trigger.toJson).getD .null).depth ≤ 1 := by
  rcases t with _ | _ | _ | _ <;>
    simp [Trigger.toJson, Json.depth, Json.depthMembers, Handle.toJson]

theorem Automation.depth_toJson_le {a : Automation} {n : ℕ} (hn : 1 ≤ n)
    (condition : (Expr.optionToJson a.condition).depth ≤ n)
    (guards : ∀ g ∈ a.guards, (Expr.optionToJson g.expr).depth + 1 ≤ n)
    (actions : ∀ c ∈ a.actions, (Expr.optionToJson c.call).depth + 1 ≤ n) :
    a.toJson.depth ≤ n + 2 := by
  have hguards : Json.depthEach (a.guards.map Guard.toJson) ≤ n := by
    simp only [Json.depthEach_le_iff, List.forall_mem_map]
    intro g hg
    have := guards g hg
    simp only [Guard.toJson, Json.depth, Json.depthMembers]
    omega
  have hactions : Json.depthEach (a.actions.map Action.toJson) ≤ n := by
    simp only [Json.depthEach_le_iff, List.forall_mem_map]
    intro c hc
    have := actions c hc
    simp only [Action.toJson, Json.depth, Json.depthMembers]
    omega
  have hid : (textOrNull a.id).depth = 0 := by cases a.id <;> rfl
  have htrigger := Trigger.depth_toJson_le_one a.trigger
  simp only [Automation.toJson, Json.depth, Json.depthMembers]
  omega

namespace Block

/-- In its written form, an automation is nested at most two levels deeper than its block. -/
theorem depth_automation {b : Block} {n : ℕ} {a : Automation} (hb : b.ComesFrom n)
    (h : b.automation.value = some a) : a.toJson.depth ≤ n + 2 := by
  rw [value_automation, Option.map_eq_some_iff] at h
  obtain ⟨type, -, rfl⟩ := h
  refine Automation.depth_toJson_le hb.pos (depth_exprAt hb "CONDITIONS") ?_ ?_
  · intro g hg
    obtain ⟨s, hs, hg⟩ := List.mem_filterMap.1 hg
    exact Statement.expr_of_guard? hg ▸ depth_body hb hs
  · intro c hc
    obtain ⟨s, hs, hc⟩ := List.mem_filterMap.1 hc
    exact Statement.expr_of_action? hc ▸ depth_body hb hs

end Block

/-- What is decoded from a text can be written and read back. -/
theorem Workspace.writable_automations {text : String} {w : Workspace}
    (h : Workspace.read text = .ok w) :
    (∀ a ∈ w.automations.value, a.HandlesWellFormed)
      ∧ (Program.toJson w.automations.value).depth ≤ Json.Reader.maxDepth := by
  constructor
  · intro a ha
    obtain ⟨b, -, hab⟩ := mem_automations_iff.1 ha
    exact (Block.editorShaped_automation hab).handles
  · refine Nat.succ_le_succ (Json.depthEach_le_iff.2 ?_)
    rw [List.forall_mem_map]
    intro a ha
    obtain ⟨b, hb, hab⟩ := mem_automations_iff.1 ha
    exact Block.depth_automation (comesFrom_of_read h b hb) hab

end HomeScript
