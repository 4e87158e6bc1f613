import HomeScript.Proofs.Script.LineCount
import HomeScript.Proofs.Studio.Generate
import HomeScript.Proofs.Workspace.Editor

/-! # Lines that a workspace adds

Whatever is typed into the blocks of a workspace stays on the line where it belongs. The name of an
event does not: it is taken from the type of its block and written as it is.
-/

namespace HomeScript.Studio

/-- The code of a workspace has the lines of its automations, and those within the names of their
events. -/
theorem lineFeeds_transpileText {text : String} {w : Workspace}
    (h : Workspace.read text = .ok w) :
    let p : Program := w.automations.value
    let code := p.code .escaped
    let expected := (p.map Automation.lineCount).sum
    (transpileText .escaped text).map Transpiled.code = .ok code
      ∧ lineFeeds code = expected + (p.map fun a => lineFeeds a.triggerToken).sum
      ∧ (lineFeeds code = expected ↔ ∀ a ∈ p, OnOneLine a.triggerToken) := by
  intro p code expected
  have hp : ∀ a ∈ p, Expr.NamesOnOneLine (a.exprs.flatMap Expr.nodes) := by
    intro a ha
    obtain ⟨b, -, hb⟩ := Workspace.mem_automations_iff.1 ha
    exact (Block.editorShaped_automation hb).exprs.names
  have hcode : lineFeeds code = expected + (p.map fun a => lineFeeds a.triggerToken).sum :=
    Program.lineFeeds_code hp
  refine ⟨code_transpileText h .escaped, hcode, ?_⟩
  rw [hcode, Nat.add_eq_left, Program.sum_lineFeeds_eq_zero_iff]

/-! ## An event of several lines -/

def eventBlock (event : String) : Block where
  type := "event_" ++ event

/-- A block for an automation that this event sets off and that does nothing. -/
def reactionBlock (event : String) : Block where
  type := "automation"
  inputs := [("EVENT", { block := some (eventBlock event) })]

def reactionBlockJson (event : String) : Json :=
  .object [("type", .string "automation"), ("inputs", .object [("EVENT",
    .object [("block", .object [("type", .string ("event_" ++ event))])])])]

def reactionWorkspaceJson (event : String) : Json :=
  singleWorkspaceJson (reactionBlockJson event)

def reactionProgram (event : String) : Program :=
  [{ name := "", trigger := some (.event event) }]

theorem ofJson_eventBlock (event : String) :
    Block.ofJson (.object [("type", .string ("event_" ++ event))]) = .ok (eventBlock event) := by
  rw [Block.ofJson_eq]
  rfl

theorem read_reactionWorkspace (event : String) :
    Workspace.read (reactionWorkspaceJson event).text = .ok ⟨[reactionBlock event]⟩ := by
  apply read_singleWorkspace
  · simp [singleWorkspaceJson, reactionBlockJson, Json.depth, Json.depthMembers, Json.depthEach,
      Json.Reader.maxDepth]
  · exact ofJson_pluggedBlock "automation" "EVENT" rfl (ofJson_eventBlock event)

theorem automations_reactionWorkspace {event : String} (he : event ∉ valueEvents) :
    (Workspace.automations ⟨[reactionBlock event]⟩).value = reactionProgram event := by
  have htrigger : (eventBlock event).trigger.value = some (.event event) := by
    rw [Block.value_trigger, Block.event_eq rfl he]
    rfl
  have hblock : (reactionBlock event).automation.value
      = some { name := "", trigger := (eventBlock event).trigger.value } := rfl
  rw [Workspace.automations, Workspace.value_automationsOf, List.filterMap_cons, hblock, htrigger]
  rfl

theorem lineFeeds_transpileText_motion :
    let event := "MotionSensorOnEvent"
    let text := (reactionWorkspaceJson event).text
    let code := (reactionProgram event).code .escaped
    (transpileText .escaped text).map Transpiled.code = .ok code ∧ lineFeeds code = 3 := by
  intro event text code
  obtain ⟨hcode, -, hlines⟩ := lineFeeds_transpileText (read_reactionWorkspace event)
  rw [automations_reactionWorkspace (by decide)] at hcode hlines
  exact ⟨hcode, hlines.2 (by decide)⟩

/-- An event whose name closes its automation runs what it likes and opens another one. -/
theorem injected_by_event :
    let event := "A) \x7b\nrun evil()\n\x7d\n\nautomation \"\" (B"
    let text := (reactionWorkspaceJson event).text
    let p := reactionProgram event
    let code :=
      "automation \"\" (A) \x7b\nrun evil()\n\x7d\n\nautomation \"\" (B) \x7b\n\x7d\n\n"
    (∃ w, Workspace.read text = .ok w ∧ w.automations.value = p)
      ∧ (transpileText .escaped text).map Transpiled.code = .ok code
      ∧ (p.map Automation.lineCount).sum = 3
      ∧ lineFeeds code = 7 := by
  intro event text p code
  have hread := read_reactionWorkspace event
  have hp : (Workspace.automations ⟨[reactionBlock event]⟩).value = p :=
    automations_reactionWorkspace (by decide)
  refine ⟨⟨_, hread, hp⟩, ?_, rfl, by decide⟩
  rw [code_transpileText hread, hp]
  exact congrArg Except.ok (by decide)

end HomeScript.Studio
