import Mathlib.Data.List.Induction
import HomeScript.Proofs.Script.Lines
import HomeScript.Proofs.Workspace.Log
import HomeScript.Script.Emit

/-! # Nothing is lost in chains

Each block of a chain is a guard, an action or a line of the log; each action is a line of code or a
line of the log, and each block on the workspace an automation or a line of the log. All of them
stay in order, and chains can be cut anywhere.
-/

namespace HomeScript

theorem length_filterMap_add_length_filter {α β : Type} {f : α → Option β} {p : α → Bool}
    (h : ∀ x, f x = none ↔ p x) (xs : List α) :
    (xs.filterMap f).length + (xs.filter p).length = xs.length := by
  induction xs with
  | nil => rfl
  | cons x xs ih =>
    rw [List.filter_cons, List.length_cons, ← ih]
    cases hx : f x with
    | none =>
      rw [List.filterMap_cons_none hx, if_pos ((h x).1 hx), List.length_cons]
      omega
    | some y =>
      have hp : ¬ p x := fun hp => by simp [(h x).2 hp] at hx
      rw [List.filterMap_cons_some hx, if_neg hp, List.length_cons]
      omega

theorem length_guards_add_length_actions (ss : List Statement) :
    (ss.filterMap Statement.guard?).length + (ss.filterMap Statement.action?).length
      = ss.length := by
  induction ss with
  | nil => rfl
  | cons s ss ih =>
    cases s <;> simp only [List.filterMap_cons, Statement.guard?, Statement.action?,
      List.length_cons] <;> omega

section
variable {α β : Type} {p : α → Prop} [DecidablePred p]

theorem flatMap_ite (f : α → β) (xs : List α) :
    (xs.flatMap fun x => if p x then [f x] else []) = (xs.filter p).map f := by
  induction xs with
  | nil => rfl
  | cons x xs ih =>
    rw [List.flatMap_cons, ih, List.filter_cons]
    by_cases hx : p x <;> simp [hx]

theorem filterMap_eq_map_filter {f : α → Option β} {g : α → β}
    (h : ∀ x, f x = if p x then some (g x) else none) (xs : List α) :
    xs.filterMap f = (xs.filter p).map g := by
  induction xs with
  | nil => rfl
  | cons x xs ih =>
    rw [List.filterMap_cons, ih, List.filter_cons, h]
    by_cases hx : p x <;> simp [hx]

end

/-! ## Chains -/

namespace Block

/-- The blocks of the chain that starts with a block, if there is one. -/
def chainFrom (first : Option Block) : List Block :=
  (first.map chain).getD []

def statementsFrom (first : Option Block) : Noticed (List Statement) :=
  statements (chainFrom first)

def guardsFrom (first : Option Block) : List Guard :=
  (statementsFrom first).value.filterMap Statement.guard?

def actionsFrom (first : Option Block) : List Action :=
  (statementsFrom first).value.filterMap Statement.action?

/-- The types of blocks that are reported as unknown statements. -/
def unknownFrom (first : Option Block) : List String :=
  logged .warn "Unknown statement block type: " (statementsFrom first).notices

def IsGuard (b : Block) : Prop :=
  StatementBlock.ofType b.type = .guard

instance : DecidablePred IsGuard :=
  fun b => inferInstanceAs (Decidable (StatementBlock.ofType b.type = .guard))

def IsUnknownStatement (b : Block) : Prop :=
  StatementBlock.ofType b.type = .other

instance : DecidablePred IsUnknownStatement :=
  fun b => inferInstanceAs (Decidable (StatementBlock.ofType b.type = .other))

/-- All but guards and what is not known. -/
def IsAction (b : Block) : Prop :=
  ¬ b.IsGuard ∧ ¬ b.IsUnknownStatement

instance : DecidablePred IsAction :=
  fun b => inferInstanceAs (Decidable (¬ b.IsGuard ∧ ¬ b.IsUnknownStatement))

/-- What an action block runs: what is plugged in, or a function of the device plugged in. -/
def callOfAction (b : Block) : Option Expr :=
  match StatementBlock.ofType b.type with
  | .deviceAction f => some (.call f [(b.deviceAt "NAME").value.map Expr.device])
  | _ => (b.exprAt "ACTION").value

theorem guard?_statement (b : Block) : b.statement.value.bind Statement.guard?
    = if b.IsGuard then some ⟨(b.exprAt "CONDITION").value⟩ else none := by
  rw [value_statement]
  split <;> next h => simp [IsGuard, h, Statement.guard?]

theorem action?_statement (b : Block) : b.statement.value.bind Statement.action?
    = if b.IsAction then some ⟨b.callOfAction⟩ else none := by
  rw [value_statement, callOfAction]
  split <;> next h => simp [IsAction, IsGuard, IsUnknownStatement, h, Statement.action?]

theorem value_statement_eq_none_iff (b : Block) :
    b.statement.value = none ↔ b.IsUnknownStatement := by
  rw [value_statement, IsUnknownStatement]
  cases StatementBlock.ofType b.type <;> simp

theorem logged_statements (bs : List Block) :
    logged .warn "Unknown statement block type: " (statements bs).notices
      = (bs.filter (·.IsUnknownStatement)).map Block.type := by
  have hplugs (b : Block) : logged .warn "Unknown statement block type: "
      (b.consultedByStatement.flatMap b.noticesAt) = [] := by
    apply logged_eq_nil (by simp [Notice.openings])
    intro n hn
    obtain ⟨plug, -, hn⟩ := List.mem_flatMap.1 hn
    exact (isOfPlug_noticesAt n hn).opening_ne.1
  have hown : (bs.flatMap fun b =>
      if StatementBlock.ofType b.type = .other then [Notice.unknownStatement b.type] else [])
      = (bs.filter (·.IsUnknownStatement)).map fun b => Notice.unknownStatement b.type :=
    flatMap_ite ..
  rw [notices_statements, logged_flatMap]
  simp only [notices_statement, logged_append, hplugs, List.nil_append]
  rw [← logged_flatMap, hown]
  apply logged_map
  · exact fun _ => rfl
  · exact fun _ => rfl

/-- What becomes of the blocks of a chain, known and unknown. -/
structure ChainKept (first : Option Block) : Prop where
  guards : guardsFrom first
    = ((chainFrom first).filter (·.IsGuard)).map fun b => ⟨(b.exprAt "CONDITION").value⟩
  actions : actionsFrom first
    = ((chainFrom first).filter (·.IsAction)).map fun b => ⟨b.callOfAction⟩
  unknown : unknownFrom first
    = ((chainFrom first).filter (·.IsUnknownStatement)).map Block.type
  length : (guardsFrom first).length + (actionsFrom first).length + (unknownFrom first).length
    = (chainFrom first).length

theorem chainKept (first : Option Block) : ChainKept first where
  guards := by
    rw [guardsFrom, statementsFrom, value_statements, List.filterMap_filterMap]
    exact filterMap_eq_map_filter guard?_statement _
  actions := by
    rw [actionsFrom, statementsFrom, value_statements, List.filterMap_filterMap]
    exact filterMap_eq_map_filter action?_statement _
  unknown := logged_statements _
  length := by
    rw [guardsFrom, actionsFrom, length_guards_add_length_actions, unknownFrom, statementsFrom,
      logged_statements, List.length_map, value_statements]
    exact length_filterMap_add_length_filter (by simp [value_statement_eq_none_iff]) _

/-! ## Joined chains -/

end Block

/-- Another target, plugged in where the old one was. -/
def Connection.retarget {β : Type} (c : Connection β) (b : β) : Connection β :=
  match c.block with
  | some _ => { c with block := some b }
  | none => { c with shadow := some b }

theorem Connection.target_retarget {β : Type} (c : Connection β) (b : β) :
    (c.retarget b).target = some b := by
  obtain ⟨_ | _, _⟩ := c <;> rfl

namespace Block

/-- A chain that is followed by another one. -/
def joined (b : Block) (second : Option Block) : Block :=
  match h : b.nextBlock with
  | some c =>
    have := sizeOf_nextBlock h
    { b with next := b.next.map fun n => n.retarget (c.joined second) }
  | none => { b with next := second.map fun c => { block := some c } }
termination_by sizeOf b

/-- The first block of two chains, end to end. -/
def joinedFrom (first second : Option Block) : Option Block :=
  match first with
  | some b => some (b.joined second)
  | none => second

/-- The block apart from its chain. -/
def alone (b : Block) : Block :=
  { b with next := none }

theorem nextBlock_joined (b : Block) (second : Option Block) :
    (b.joined second).nextBlock = joinedFrom b.nextBlock second := by
  rw [joined]
  split
  · next c hc =>
    obtain ⟨n, hn, -⟩ := Option.bind_eq_some_iff.1 hc
    change (b.next.map fun n => n.retarget (c.joined second)).bind Connection.target = _
    rw [hn, hc]
    exact n.target_retarget _
  · next hc =>
    simp only [hc]
    cases second <;> rfl

theorem alone_joined (b : Block) (second : Option Block) : (b.joined second).alone = b.alone := by
  rw [joined]
  split <;> rfl

theorem chain_joined (b : Block) (second : Option Block) :
    (b.joined second).chain.map alone = (b.chain ++ chainFrom second).map alone := by
  rw [chain_eq, chain_eq b, nextBlock_joined, List.map_cons, alone_joined]
  cases hc : b.nextBlock with
  | none => rfl
  | some c =>
    have := sizeOf_nextBlock hc
    exact congrArg _ (chain_joined c second)
termination_by sizeOf b

/-- Joined chains have the blocks of one and then those of the other. -/
theorem chainFrom_joinedFrom (first second : Option Block) :
    (chainFrom (joinedFrom first second)).map alone
      = (chainFrom first ++ chainFrom second).map alone := by
  cases first with
  | none => rfl
  | some b => exact b.chain_joined second

theorem value_joinedFrom (first second : Option Block) :
    (statementsFrom (joinedFrom first second)).value
      = (statementsFrom first).value ++ (statementsFrom second).value := by
  have halone (bs : List Block) : (bs.filterMap fun b => b.statement.value)
      = (bs.map alone).filterMap fun b => b.statement.value := by
    rw [List.filterMap_map]
    rfl
  simp only [statementsFrom, value_statements]
  rw [halone, chainFrom_joinedFrom, ← halone, List.filterMap_append]

/-- What becomes of two chains that are joined. -/
structure JoinKept (first second : Option Block) : Prop where
  blocks : (chainFrom (joinedFrom first second)).map alone
    = (chainFrom first ++ chainFrom second).map alone
  guards : guardsFrom (joinedFrom first second) = guardsFrom first ++ guardsFrom second
  actions : actionsFrom (joinedFrom first second) = actionsFrom first ++ actionsFrom second

theorem joinKept (first second : Option Block) : JoinKept first second where
  blocks := chainFrom_joinedFrom first second
  guards := by
    rw [guardsFrom, value_joinedFrom, List.filterMap_append]
    rfl
  actions := by
    rw [actionsFrom, value_joinedFrom, List.filterMap_append]
    rfl

theorem value_statementsFrom_of_unknown {first : Option Block}
    (h : ∀ b ∈ chainFrom first, b.IsUnknownStatement) : (statementsFrom first).value = [] := by
  rw [statementsFrom, value_statements, List.filterMap_eq_nil_iff]
  exact fun b hb => b.value_statement_eq_none_iff.2 (h b hb)

end Block

/-! ## Actions -/

namespace Automation

/-- The positions of actions with nothing to run. -/
def skipped (a : Automation) : List ℕ :=
  (List.range a.actions.length).filter fun i => (a.actions[i]?.bind Action.call).isNone

theorem skipNotices_eq (a : Automation) : a.skipNotices = a.skipped.map .skippedAction := by
  rw [skipNotices, skipped]
  generalize a.actions = actions
  induction actions using List.reverseRecOn with
  | nil => rfl
  | append_singleton actions action ih =>
    have hbefore : ∀ i ∈ List.range actions.length,
        (((actions ++ [action])[i]?).bind Action.call).isNone
          = (actions[i]?.bind Action.call).isNone := by
      intro i hi
      rw [List.getElem?_append_left (List.mem_range.1 hi)]
    rw [List.zipIdx_append, List.filterMap_append, ih, List.length_append, List.length_singleton,
      List.range_succ, List.filter_append, List.filter_congr hbefore, List.map_append]
    cases hcall : action.call <;> simp [hcall]

theorem logged_skipNotices (a : Automation) : logged .debug "Skipping action " a.skipNotices
    = a.skipped.map fun i => Nat.repr i ++ " with nothing to run" := by
  rw [skipNotices_eq]
  apply logged_map
  · exact fun _ => rfl
  · exact fun _ => String.append_assoc

theorem length_skipped (a : Automation) :
    a.skipped.length = (a.actions.filter fun action => action.call.isNone).length := by
  have hskips : a.skipped.length = a.skipNotices.length := by
    rw [skipNotices_eq, List.length_map]
  have hcall (x : Action × ℕ) :
      (if x.1.call.isNone then some (Notice.skippedAction x.2) else none).isSome
        = x.1.call.isNone := by
    cases x.1.call <;> rfl
  rw [hskips, skipNotices, List.length_filterMap_eq_countP, ← List.countP_eq_length_filter]
  simp only [hcall]
  rw [← List.zipIdx_map_fst 0 a.actions, List.countP_map, List.zipIdx_map_fst]
  rfl

theorem logged_emit (q : Quoting) (a : Automation) :
    logged .debug "Skipping action " (Program.emit q [a]).notices
      = a.skipped.map fun i => Nat.repr i ++ " with nothing to run" := by
  have hend : logged .debug "Skipping action "
      [.generated 1 (Program.code q [a]).utf8ByteSize] = [] := by
    apply logged_eq_nil (by simp [Notice.openings])
    simp [Notice.opening]
  rw [← logged_skipNotices, Program.emit, List.flatMap_singleton, logged_append]
  exact (congrArg _ hend).trans (List.append_nil _)

/-- What becomes of the actions of an automation. -/
structure ActionsKept (q : Quoting) (a : Automation) : Prop where
  code : (Program.emit q [a]).value = joinLines (a.header q :: a.guardLines q)
    ++ joinLines (a.runLines q) ++ joinLines ["\x7d", ""]
  runs : a.runLines q = (a.actions.filterMap Action.call).map fun e => "run " ++ (e.fragment q).code
  skips : logged .debug "Skipping action " (Program.emit q [a]).notices
    = a.skipped.map fun i => Nat.repr i ++ " with nothing to run"
  length : (a.runLines q).length
      + (logged .debug "Skipping action " (Program.emit q [a]).notices).length
    = a.actions.length

theorem runLines_eq (q : Quoting) (a : Automation) :
    a.runLines q = (a.actions.filterMap Action.call).map fun e => "run " ++ (e.fragment q).code := by
  rw [runLines, List.map_filterMap]
  rfl

theorem actionsKept (q : Quoting) (a : Automation) : a.ActionsKept q where
  code := by
    change Program.code q [a] = _
    rw [Program.code_eq_joinLines, List.flatMap_singleton, lines, joinLines_append,
      joinLines_append]
  runs := a.runLines_eq q
  skips := a.logged_emit q
  length := by
    rw [runLines_eq, logged_emit, List.length_map, List.length_map, length_skipped]
    exact length_filterMap_add_length_filter (by simp) _

end Automation

/-! ## Workspaces -/

namespace Block

def IsLoose (b : Block) : Prop :=
  AutomationBlock.ofType b.type = none

instance : DecidablePred IsLoose :=
  fun b => inferInstanceAs (Decidable (AutomationBlock.ofType b.type = none))

theorem value_automation_eq_none_iff (b : Block) : b.automation.value = none ↔ b.IsLoose := by
  rw [value_automation, Option.map_eq_none_iff]
  rfl

theorem body_of_automation {b : Block} {a : Automation} (h : b.automation.value = some a) :
    a.guards = guardsFrom (b.input "ACTIONS") ∧ a.actions = actionsFrom (b.input "ACTIONS") := by
  rw [value_automation, Option.map_eq_some_iff] at h
  obtain ⟨type, -, rfl⟩ := h
  exact ⟨rfl, rfl⟩

end Block

namespace Workspace

theorem logged_automationsOf (bs : List Block) :
    logged .debug "Ignoring top-level " (automationsOf bs).notices
      = (bs.filter (·.IsLoose)).map fun b => b.type ++ " block outside any automation" := by
  have hwithin (b : Block) : logged .debug "Ignoring top-level " b.automation.notices = [] := by
    apply logged_eq_nil (by simp [Notice.openings])
    exact b.opening_automation
  have hown : (bs.flatMap fun b =>
      if b.automation.value.isSome then [] else [Notice.looseBlock b.type])
      = (bs.filter (·.IsLoose)).map fun b => .looseBlock b.type := by
    rw [← flatMap_ite]
    congr 1
    funext b
    by_cases hb : b.IsLoose
    · simp [hb, b.value_automation_eq_none_iff.2 hb]
    · simp [hb, Option.isSome_iff_ne_none, b.value_automation_eq_none_iff]
  rw [notices_automationsOf, logged_flatMap]
  simp only [logged_append, hwithin, List.nil_append]
  rw [← logged_flatMap, hown]
  apply logged_map
  · exact fun _ => rfl
  · exact fun _ => String.append_assoc

theorem map_automationsOf {γ : Type} {f : Automation → γ} {g : Block → γ}
    (h : ∀ b a, b.automation.value = some a → f a = g b) (bs : List Block) :
    (automationsOf bs).value.map f = (bs.filter (¬ ·.IsLoose)).map g := by
  rw [value_automationsOf, List.map_filterMap]
  apply filterMap_eq_map_filter
  intro b
  cases ha : b.automation.value with
  | none => simp [b.value_automation_eq_none_iff.1 ha]
  | some a =>
    have hloose : ¬ b.IsLoose := by simp [← b.value_automation_eq_none_iff, ha]
    rw [if_pos hloose, Option.map_some, h b a ha]

/-- What becomes of the blocks on a workspace. -/
structure BlocksKept (w : Workspace) : Prop where
  automations : w.automations.value = w.blocks.filterMap fun b => b.automation.value
  guards : w.automations.value.map Automation.guards
    = (w.blocks.filter (¬ ·.IsLoose)).map fun b => Block.guardsFrom (b.input "ACTIONS")
  actions : w.automations.value.map Automation.actions
    = (w.blocks.filter (¬ ·.IsLoose)).map fun b => Block.actionsFrom (b.input "ACTIONS")
  ignored : logged .debug "Ignoring top-level " w.automations.notices
    = (w.blocks.filter (·.IsLoose)).map fun b => b.type ++ " block outside any automation"
  length : w.automations.value.length
      + (logged .debug "Ignoring top-level " w.automations.notices).length
    = w.blocks.length

theorem blocksKept (w : Workspace) : w.BlocksKept where
  automations := value_automationsOf _
  guards := map_automationsOf (fun _ _ h => (Block.body_of_automation h).1) _
  actions := map_automationsOf (fun _ _ h => (Block.body_of_automation h).2) _
  ignored := logged_automationsOf _
  length := by
    rw [automations, value_automationsOf, logged_automationsOf, List.length_map]
    exact length_filterMap_add_length_filter (by simp [Block.value_automation_eq_none_iff]) _

end Workspace

/-- Every block of a chain, every action and every block on a workspace leaves its mark, in order.
Chains are read piece by piece, and blocks that are not known may stand between the pieces. -/
theorem nothing_lost :
    (∀ first, Block.ChainKept first)
      ∧ (∀ first second, Block.JoinKept first second)
      ∧ (∀ first unknown second, (∀ b ∈ Block.chainFrom unknown, b.IsUnknownStatement) →
        (Block.statementsFrom (Block.joinedFrom first (Block.joinedFrom unknown second))).value
          = (Block.statementsFrom (Block.joinedFrom first second)).value)
      ∧ (∀ (q : Quoting) (a : Automation), a.ActionsKept q)
      ∧ ∀ w : Workspace, w.BlocksKept := by
  refine ⟨Block.chainKept, Block.joinKept, ?_, fun q a => a.actionsKept q, Workspace.blocksKept⟩
  intro first unknown second hunknown
  rw [Block.value_joinedFrom, Block.value_joinedFrom, Block.value_joinedFrom,
    Block.value_statementsFrom_of_unknown hunknown, List.nil_append]

/-- An unknown block between a guard and an action. -/
theorem nothing_lost_between :
    let guard : Block := { type := "condition" }
    let unknown : Block := { type := "text_print" }
    let action : Block := { type := "action" }
    (∀ b ∈ Block.chainFrom (some unknown), b.IsUnknownStatement)
      ∧ (Block.statementsFrom (Block.joinedFrom (some guard)
          (Block.joinedFrom (some unknown) (some action)))).value
        = (Block.statementsFrom (Block.joinedFrom (some guard) (some action))).value := by
  intro guard unknown action
  have hchain : Block.chainFrom (some unknown) = [unknown] := unknown.chain_eq
  have hunknown : ∀ b ∈ Block.chainFrom (some unknown), b.IsUnknownStatement := by
    rw [hchain]
    decide
  exact ⟨hunknown, nothing_lost.2.2.1 (some guard) (some unknown) (some action) hunknown⟩

end HomeScript
