import HomeScript.Proofs.Workspace.Value

/-! # What is noticed of blocks that are of no use

All that is noticed while a block is read is noticed of it or of what is plugged into it. A block of
no use is noticed where a trigger or a value is asked for. Where a device is asked for, it is passed
over unless it names a device that is malformed.
-/

namespace HomeScript

namespace Noticed

theorem notices_mapM {α β : Type} (f : α → Noticed β) (xs : List α) :
    (xs.mapM f).notices = xs.flatMap fun x => (f x).notices := by
  induction xs with
  | nil => rfl
  | cons x xs ih =>
    rw [List.mapM_cons, notices_bind, notices_bind, ih, List.flatMap_cons]
    simp

theorem notices_map {α β : Type} (f : α → β) (x : Noticed α) : (f <$> x).notices = x.notices :=
  List.append_nil x.notices

end Noticed

/-- What a block is asked for where it is plugged in. -/
inductive Role where
  | trigger
  | device
  | value
  deriving DecidableEq

namespace Block

/-- Whether a block gives what it is asked for, with the notices of asking. -/
def asked (b : Block) : Role → Noticed Bool
  | .trigger => ⟨b.trigger.value.isSome, b.trigger.notices⟩
  | .device => ⟨b.device.value.isSome, b.device.notices⟩
  | .value => ⟨b.expr.value.isSome, b.expr.notices⟩

/-! ## Inputs that are consulted -/

/-- The inputs that are consulted when a block is asked for something, each with what is asked of
the block in it. -/
def consulted (b : Block) : Role → List (String × Role)
  | .trigger => if b.event.isSome then [("DEVICE", .device)] else []
  | .device => []
  | .value =>
    match ValueBlock.ofType b.type with
    | .operation =>
      if ((b.field "OP").bind Operator.ofToken).isSome then [("LEFT", .value), ("RIGHT", .value)]
      else []
    | .conjunction => [("CONDITION1", .value), ("CONDITION2", .value)]
    | .negation => [("VALUE", .value)]
    | .origin => [("NAME", .device)]
    | .builtin f => f.inputs.map (·, .value)
    | .string | .number | .boolean | .null | .other => []

def consultedByStatement (b : Block) : List (String × Role) :=
  match StatementBlock.ofType b.type with
  | .guard => [("CONDITION", .value)]
  | .action => [("ACTION", .value)]
  | .deviceAction _ => [("NAME", .device)]
  | .other => []

/-- The inputs of an automation apart from its body. -/
def consultedByAutomation (b : Block) : List (String × Role) :=
  match AutomationBlock.ofType b.type with
  | some .onEvent => [("EVENT", .trigger), ("CONDITIONS", .value)]
  | some .atTime => [("CONDITIONS", .value)]
  | none => []

/-- The statements in the body of an automation. -/
def bodyBlocks (b : Block) : List Block :=
  if (AutomationBlock.ofType b.type).isSome then ((b.input "ACTIONS").map chain).getD [] else []

/-- What is noticed of the block at an input that is consulted. -/
def noticesAt (b : Block) (plug : String × Role) : List Notice :=
  ((b.input plug.1).map fun c => (c.asked plug.2).notices).getD []

/-! ## Where notices come from -/

theorem notices_exprAt (b : Block) (name : String) :
    (b.exprAt name).notices = b.noticesAt (name, .value) := by
  unfold exprAt noticesAt
  cases b.input name <;> rfl

theorem notices_deviceAt (b : Block) (name : String) :
    (b.deviceAt name).notices = b.noticesAt (name, .device) := by
  unfold deviceAt noticesAt
  cases b.input name <;> rfl

theorem notices_triggerAt (b : Block) (name : String) :
    (b.triggerAt name).notices = b.noticesAt (name, .trigger) := by
  unfold triggerAt noticesAt
  cases b.input name <;> rfl

theorem notices_trigger (b : Block) : b.trigger.notices
    = (b.consulted .trigger).flatMap b.noticesAt
      ++ if b.event.isSome then [] else [.unknownEvent b.type] := by
  unfold trigger consulted
  cases b.event with
  | none => rfl
  | some e =>
    simp only [Option.isSome_some, if_true, List.flatMap_singleton, ← notices_deviceAt,
      Noticed.notices_bind]
    cases (b.deviceAt "DEVICE").value <;> rfl

/-- What is noticed of a value block itself. -/
def ownNotices (b : Block) : List Notice :=
  match ValueBlock.ofType b.type with
  | .operation =>
    if ((b.field "OP").bind Operator.ofToken).isSome then []
    else [.unknownOperator (b.field "OP") b.type]
  | .other => b.device.notices ++ if b.device.value.isSome then [] else [.unknownValue b.type]
  | _ => []

/-- An expression is read from the blocks at the inputs; that these are smaller does not matter. -/
theorem expr_eq (b : Block) : b.expr =
    match ValueBlock.ofType b.type with
    | .string => return some (.string ((b.field "VALUE").getD ""))
    | .number => return some (.number (((b.fieldValue "VALUE").bind Json.numberField).getD .zero))
    | .boolean => return some (.boolean (b.field "VALUE" = some "true"))
    | .null => return some .null
    | .operation =>
      match (b.field "OP").bind Operator.ofToken with
      | some op => return some (.binary op (← b.exprAt "LEFT") (← b.exprAt "RIGHT"))
      | none => do
        Noticed.tell (.unknownOperator (b.field "OP") b.type)
        return none
    | .conjunction =>
      return some (.binary .and (← b.exprAt "CONDITION1") (← b.exprAt "CONDITION2"))
    | .negation => return some (.negation (← b.exprAt "VALUE"))
    | .origin => do
      let h ← b.deviceAt "NAME"
      return some (.binary .equals (some (.call .getDevice [])) (h.map fun h => .string h.text))
    | .builtin f => return some (.call f (← f.inputs.mapM fun name => b.exprAt name))
    | .other => do
      match ← b.device with
      | some h => return some (.device h)
      | none =>
        Noticed.tell (.unknownValue b.type)
        return none := by
  simp only [← inner_expr]
  exact expr.eq_def b

theorem notices_expr (b : Block) :
    b.expr.notices = (b.consulted .value).flatMap b.noticesAt ++ b.ownNotices := by
  rw [expr_eq]
  unfold consulted ownNotices
  cases ValueBlock.ofType b.type with
  | operation =>
    cases (b.field "OP").bind Operator.ofToken with
    | none => rfl
    | some op => simp [Noticed.notices_map, notices_exprAt]
  | builtin f =>
    simp [Noticed.notices_map, Noticed.notices_mapM, notices_exprAt, List.flatMap_map]
  | other =>
    dsimp only
    rw [Noticed.notices_bind]
    cases b.device.value <;> rfl
  | conjunction | negation => simp [Noticed.notices_map, notices_exprAt]
  | origin => simp [Noticed.notices_map, notices_deviceAt]
  | string | number | boolean | null => rfl

theorem notices_statement (b : Block) : b.statement.notices
    = b.consultedByStatement.flatMap b.noticesAt
      ++ if StatementBlock.ofType b.type = .other then [.unknownStatement b.type] else [] := by
  unfold statement consultedByStatement
  cases StatementBlock.ofType b.type <;>
    simp [Noticed.notices_map, notices_exprAt, notices_deviceAt]

theorem notices_statements (bs : List Block) :
    (statements bs).notices = bs.flatMap fun b => b.statement.notices := by
  induction bs with
  | nil => rfl
  | cons b rest ih =>
    rw [statements, Noticed.notices_bind, Noticed.notices_bind, ih, List.flatMap_cons]
    simp

theorem notices_automation (b : Block) : b.automation.notices
    = match AutomationBlock.ofType b.type with
      | some .onEvent => b.noticesAt ("EVENT", .trigger)
        ++ b.bodyBlocks.flatMap (fun c => c.statement.notices) ++ b.noticesAt ("CONDITIONS", .value)
      | some .atTime => b.bodyBlocks.flatMap (fun c => c.statement.notices)
        ++ b.noticesAt ("CONDITIONS", .value)
      | none => [] := by
  unfold automation bodyBlocks
  cases AutomationBlock.ofType b.type with
  | none => rfl
  | some type =>
    cases type <;>
      simp [body, notices_statements, Noticed.notices_map, notices_exprAt, notices_triggerAt]

end Block

theorem Workspace.notices_automationsOf (bs : List Block) : (automationsOf bs).notices
    = bs.flatMap fun b =>
      b.automation.notices ++ if b.automation.value.isSome then [] else [.looseBlock b.type] := by
  induction bs with
  | nil => rfl
  | cons b rest ih =>
    rw [automationsOf, Noticed.notices_bind, List.flatMap_cons, ← ih]
    cases b.automation.value <;> simp [Noticed.notices_map]

/-! ## What is noticed of a block within a workspace -/

/-- Some block is consulted while a workspace is read, and this is what it is asked for. -/
inductive Workspace.Consults (w : Workspace) : Role → Block → Prop
  | automation {b c : Block} {name : String} {role : Role} (hb : b ∈ w.blocks)
      (hn : (name, role) ∈ b.consultedByAutomation) (hc : b.input name = some c) :
      Consults w role c
  | statement {b s c : Block} {name : String} {role : Role} (hb : b ∈ w.blocks)
      (hs : s ∈ b.bodyBlocks) (hn : (name, role) ∈ s.consultedByStatement)
      (hc : s.input name = some c) : Consults w role c
  | plugged {b c : Block} {name : String} {asked role : Role} (hb : Consults w asked b)
      (hn : (name, role) ∈ b.consulted asked) (hc : b.input name = some c) : Consults w role c

theorem infix_flatMap {α β : Type} {x : α} {xs : List α} (h : x ∈ xs) (f : α → List β) :
    f x <:+: xs.flatMap f :=
  List.infix_of_mem_flatten (List.mem_map_of_mem h)

namespace Block

theorem noticesAt_eq {b c : Block} {name : String} (hc : b.input name = some c) (role : Role) :
    b.noticesAt (name, role) = (c.asked role).notices := by
  rw [noticesAt, hc]
  rfl

theorem infix_asked {b : Block} {plug : String × Role} {role : Role}
    (h : plug ∈ b.consulted role) : b.noticesAt plug <:+: (b.asked role).notices := by
  have hplugs : b.noticesAt plug <:+: (b.consulted role).flatMap b.noticesAt :=
    infix_flatMap h b.noticesAt
  cases role with
  | trigger =>
    rw [asked, notices_trigger]
    exact hplugs.trans (List.prefix_append ..).isInfix
  | device => cases h
  | value =>
    rw [asked, notices_expr]
    exact hplugs.trans (List.prefix_append ..).isInfix

theorem infix_statement {b : Block} {plug : String × Role} (h : plug ∈ b.consultedByStatement) :
    b.noticesAt plug <:+: b.statement.notices := by
  rw [notices_statement]
  exact (infix_flatMap h b.noticesAt).trans (List.prefix_append ..).isInfix

theorem infix_automation {b : Block} {plug : String × Role} (h : plug ∈ b.consultedByAutomation) :
    b.noticesAt plug <:+: b.automation.notices := by
  rw [notices_automation]
  unfold consultedByAutomation at h
  split at h
  · rcases List.mem_pair.1 h with rfl | rfl
    · rw [List.append_assoc]
      exact (List.prefix_append ..).isInfix
    · exact (List.suffix_append ..).isInfix
  · obtain rfl := List.mem_singleton.1 h
    exact (List.suffix_append ..).isInfix
  · cases h

theorem infix_automation_of_body {b s : Block} (h : s ∈ b.bodyBlocks) :
    s.statement.notices <:+: b.automation.notices := by
  have hbody := infix_flatMap h fun c => c.statement.notices
  rw [notices_automation]
  unfold bodyBlocks at h hbody
  split
  · exact hbody.trans (List.infix_append ..)
  · exact hbody.trans (List.prefix_append ..).isInfix
  · next hnone =>
    simp [hnone] at h

end Block

namespace Workspace

theorem infix_automations {w : Workspace} {b : Block} (h : b ∈ w.blocks) :
    b.automation.notices <:+: w.automations.notices := by
  rw [automations, notices_automationsOf]
  exact (List.prefix_append ..).isInfix.trans (infix_flatMap h fun b =>
    b.automation.notices ++ if b.automation.value.isSome then [] else [.looseBlock b.type])

/-- What is noticed of a block is noticed of the workspace at one stretch. -/
theorem Consults.infix_automations {w : Workspace} {role : Role} {b : Block}
    (h : w.Consults role b) : (b.asked role).notices <:+: w.automations.notices := by
  induction h with
  | automation hb hn hc =>
    rw [← Block.noticesAt_eq hc]
    exact (Block.infix_automation hn).trans (w.infix_automations hb)
  | statement hb hs hn hc =>
    rw [← Block.noticesAt_eq hc]
    exact (Block.infix_statement hn).trans
      ((Block.infix_automation_of_body hs).trans (w.infix_automations hb))
  | plugged _ hn hc ih =>
    rw [← Block.noticesAt_eq hc]
    exact (Block.infix_asked hn).trans ih

end Workspace

/-! ## Blocks of no use -/

theorem afterWord_eq_none_iff (word text : String) :
    afterWord word text = none ↔ ¬ word.toList <+: text.toList := by
  rw [afterWord, ← List.isPrefixOf_iff_prefix]
  simp

namespace Block

/-- Blocks that name no device, not even a malformed one: a device block lacks one of its fields,
and any other is not called after a device. -/
def NamesNoDevice (b : Block) : Prop :=
  if b.type = "device" then b.field "INTEGRATION" = none ∨ b.field "DEVICE" = none
  else ¬ "device_".toList <+: b.type.toList

theorem handle_eq_none_iff (b : Block) : b.handle = none ↔ b.NamesNoDevice := by
  unfold handle NamesNoDevice
  split
  · cases b.field "INTEGRATION" <;> cases b.field "DEVICE" <;> simp
  · rw [Option.map_eq_none_iff]
    exact afterWord_eq_none_iff _ _

theorem device_cases (b : Block) :
    (b.NamesNoDevice ∧ b.device = pure none)
      ∨ (¬ b.NamesNoDevice ∧ b.device.value = none
        ∧ ∃ e, b.device.notices = [.invalidDevice b.type e])
      ∨ ∃ h, b.device = pure (some h) := by
  rw [← handle_eq_none_iff]
  unfold device
  cases b.handle with
  | none => exact .inl ⟨rfl, rfl⟩
  | some r =>
    cases r with
    | error e => exact .inr (.inl ⟨by simp, rfl, e, rfl⟩)
    | ok h => exact .inr (.inr ⟨h, rfl⟩)

def Warned (notices : List Notice) : Prop :=
  ∃ n ∈ notices, n.level = .warn

theorem warned_trigger {b : Block} (h : b.trigger.value = none) : Warned b.trigger.notices := by
  rw [value_trigger, Option.map_eq_none_iff] at h
  refine ⟨.unknownEvent b.type, ?_, rfl⟩
  rw [notices_trigger, h]
  simp

theorem warned_expr {b : Block} (h : b.expr.value = none) : Warned b.expr.notices := by
  rw [value_expr] at h
  have hown (n : Notice) (hn : n ∈ b.ownNotices) (hl : n.level = .warn) :
      Warned b.expr.notices := by
    refine ⟨n, ?_, hl⟩
    rw [notices_expr]
    exact List.mem_append_right _ hn
  split at h
  case h_5 ht =>
    rw [Option.map_eq_none_iff] at h
    exact hown (.unknownOperator (b.field "OP") b.type) (by simp [ownNotices, ht, h]) rfl
  case h_10 ht =>
    rw [Option.map_eq_none_iff] at h
    exact hown (.unknownValue b.type) (by simp [ownNotices, ht, h]) rfl
  all_goals cases h

theorem warned_device_iff {b : Block} (h : b.device.value = none) :
    Warned b.device.notices ↔ ¬ b.NamesNoDevice := by
  rcases b.device_cases with ⟨hn, hd⟩ | ⟨hn, -, e, hd⟩ | ⟨d, hd⟩
  · simp [Warned, hd, hn]
  · simp [Warned, hd, hn, Notice.level]
  · simp [hd] at h

end Block

/-- Where a block is consulted and gives nothing, there is a warning while it is read, unless it is
asked for a device and names none: then nothing is noticed at all. -/
theorem Workspace.warned_iff {w : Workspace} {role : Role} {b : Block} (h : w.Consults role b)
    (hb : (b.asked role).value = false) :
    (b.asked role).notices <:+: w.automations.notices
      ∧ (Block.Warned (b.asked role).notices ↔ ¬ (role = .device ∧ b.NamesNoDevice))
      ∧ (role = .device ∧ b.NamesNoDevice → (b.asked role).notices = []) := by
  refine ⟨h.infix_automations, ?_, ?_⟩
  · cases role with
    | trigger =>
      have hnone : b.trigger.value = none := by simpa [Block.asked] using hb
      exact iff_of_true (Block.warned_trigger hnone) (by simp)
    | device =>
      have hnone : b.device.value = none := by simpa [Block.asked] using hb
      rw [and_iff_right rfl]
      exact Block.warned_device_iff hnone
    | value =>
      have hnone : b.expr.value = none := by simpa [Block.asked] using hb
      exact iff_of_true (Block.warned_expr hnone) (by simp)
  · rintro ⟨rfl, hn⟩
    rcases b.device_cases with ⟨-, hd⟩ | ⟨hnot, -⟩ | ⟨d, hd⟩
    · rw [Block.asked, hd]
      rfl
    · exact absurd hn hnot
    · simp [Block.asked, hd] at hb

/-- An unknown block behind a negation. -/
theorem Workspace.warned_iff_unknown :
    let unknown : Block := { type := "math_random_float" }
    let negation : Block :=
      { type := "logical_not", inputs := [("VALUE", { block := some unknown })] }
    let w : Workspace := ⟨[{
      type := "automation_time_based"
      inputs := [("CONDITIONS", { shadow := some negation })] }]⟩
    w.Consults .value unknown ∧ Block.Warned w.automations.notices := by
  intro unknown negation w
  have hnegation : w.Consults .value negation :=
    .automation (List.mem_singleton_self _)
      (by decide : ("CONDITIONS", Role.value) ∈ Block.consultedByAutomation _) rfl
  have hunknown : w.Consults .value unknown :=
    .plugged hnegation (by decide : ("VALUE", Role.value) ∈ negation.consulted .value) rfl
  have hvalue : (unknown.asked .value).value = false := by
    have htype : ValueBlock.ofType unknown.type = .other :=
      (by decide : ValueBlock.ofType "math_random_float" = .other)
    have hdevice : unknown.device.value = none := by decide
    simp [Block.asked, Block.value_expr, htype, hdevice]
  obtain ⟨hwithin, hwarned, -⟩ := warned_iff hunknown hvalue
  obtain ⟨n, hn, hl⟩ := hwarned.2 (by simp)
  exact ⟨hunknown, n, hwithin.subset hn, hl⟩

/-- An event that is bound to something unknown is silently bound to nothing. -/
theorem Workspace.passed_over_device :
    let unknown : Block := { type := "math_random_float" }
    let event : Block :=
      { type := "event_DoorOpenEvent", inputs := [("DEVICE", { block := some unknown })] }
    let w : Workspace := ⟨[{
      type := "automation"
      inputs := [("EVENT", { block := some event })] }]⟩
    w.Consults .device unknown
      ∧ (unknown.asked .device).value = false
      ∧ w.automations.value.map Automation.trigger = [some (.event "DoorOpenEvent")]
      ∧ w.automations.notices = [] := by
  intro unknown event w
  have hevent : w.Consults .trigger event :=
    .automation (List.mem_singleton_self _)
      (by decide : ("EVENT", Role.trigger) ∈ Block.consultedByAutomation _) rfl
  have hunknown : w.Consults .device unknown :=
    .plugged hevent (by decide : ("DEVICE", Role.device) ∈ event.consulted .trigger) rfl
  exact ⟨hunknown, by decide, by decide, by decide⟩

end HomeScript
