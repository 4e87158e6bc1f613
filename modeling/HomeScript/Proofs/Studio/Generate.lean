import HomeScript.Proofs.Workspace.Decode
import HomeScript.Studio.Service

/-! # The two ways to code

The code of a workspace is generated from its automations, or from the automations once they have
been written and sent back. Both ways agree where all numbers of the automations are finite; any
other number is written as null, and then the automations are not read back at all.
-/

namespace HomeScript

namespace Studio

theorem code_transpileText {text : String} {w : Workspace} (h : Workspace.read text = .ok w)
    (q : Quoting) :
    (transpileText q text).map Transpiled.code = .ok (Program.code q w.automations.value) := by
  rw [transpileText, h]
  rfl

theorem generate_text {s : Service} {r : Request} {p : Program}
    (hr : r.contentType.any MediaType.isJson) (hb : r.body = p.toJson.text)
    (hw : ∀ a ∈ p, a.HandlesWellFormed) (hd : p.toJson.depth ≤ Json.Reader.maxDepth) :
    s.generate r = if p.isFinite then .plain (p.code s.quoting)
      else .failure 422 "Failed to deserialize the JSON body into the target type" := by
  rw [Service.generate, jsonBody, if_pos hr, hb, Program.readFirst_text hw hd]
  cases p.isFinite <;> rfl

/-- Sending the automations of a workspace back as they are written gives the code of the workspace
exactly if all their numbers are finite. -/
theorem generate_transpiled {text : String} {w : Workspace} (h : Workspace.read text = .ok w)
    (s : Service) :
    let p : Program := w.automations.value
    let direct := (transpileText s.quoting text).map Transpiled.code
    let back := Json.read p.toJson.text >>= Program.ofJson
    direct = .ok (p.code s.quoting)
      ∧ back = (if p.isFinite then .ok p else .error (.misfit (.wrongType .null)))
      ∧ (back.map (Program.code s.quoting) = direct ↔ p.isFinite)
      ∧ ∀ r : Request, r.contentType.any MediaType.isJson → r.body = p.toJson.text →
        s.generate r = if p.isFinite then .plain (p.code s.quoting)
          else .failure 422 "Failed to deserialize the JSON body into the target type" := by
  intro p direct back
  obtain ⟨hw, hd⟩ := Workspace.writable_automations h
  have hdirect : direct = .ok (p.code s.quoting) := code_transpileText h s.quoting
  have hback : back = Json.readIf p.isFinite p := Program.read_text hw hd
  refine ⟨hdirect, hback, ⟨?_, ?_⟩, ?_⟩
  · intro hcode
    rw [hback, hdirect] at hcode
    cases hp : p.isFinite with
    | true => rfl
    | false =>
      rw [hp] at hcode
      cases hcode
  · intro hp
    rw [hback, hdirect, hp]
    rfl
  · intro r hr hb
    exact generate_text hr hb hw hd

/-! ## A number that has been typed -/

/-- A block for a number that has been typed as this text. -/
def numberBlock (typed : String) : Block where
  type := "const_number"
  fields := [("VALUE", .string typed)]

def numberBlockJson (typed : String) : Json :=
  .object [("type", .string "const_number"), ("fields", .object [("VALUE", .string typed)])]

/-- A block for an automation with this condition and nothing else. -/
def conditionBlock (condition : Block) : Block where
  type := "automation"
  inputs := [("CONDITIONS", { block := some condition })]

def conditionBlockJson (condition : Json) : Json :=
  .object [("type", .string "automation"),
    ("inputs", .object [("CONDITIONS", .object [("block", condition)])])]

/-- A workspace of one automation, which holds if a number does that has been typed so. -/
def typedWorkspaceJson (typed : String) : Json :=
  .object [("blocks", .object [("blocks",
    .array [conditionBlockJson (numberBlockJson typed)])])]

def typedProgram (typed : String) : Program :=
  [{ name := "", condition := (numberBlock typed).expr.value }]

theorem ofJson_numberBlock (typed : String) :
    Block.ofJson (numberBlockJson typed) = .ok (numberBlock typed) := by
  rw [Block.ofJson_eq]
  rfl

theorem ofJson_pluggedBlock (type name : String) {j : Json} {b : Block} (hj : j.isNull = false)
    (hb : Block.ofJson j = .ok b) :
    Block.ofJson (.object [("type", .string type),
      ("inputs", .object [(name, .object [("block", j)])])])
        = .ok { type, inputs := [(name, { block := some b })] } := by
  have hplugged : Block.connection (.object [("block", j)]) = .ok { block := some b } := by
    have : Block.connection (.object [("block", j)])
        = do return ⟨← Json.unlessNull Block.ofJson j, ← .ok none⟩ := rfl
    rw [this, Json.unlessNull, hj, hb]
    rfl
  rw [Block.ofJson_eq]
  refine Eq.trans (b := do
    let inputs ← [(name, Json.object [("block", j)])].mapM fun m =>
      (m.1, ·) <$> Block.connection m.2
    return { type, inputs }) rfl ?_
  rw [List.mapM_cons, hplugged]
  rfl

/-- A workspace with one block. -/
def singleWorkspaceJson (block : Json) : Json :=
  .object [("blocks", .object [("blocks", .array [block])])]

theorem read_workspace {js : List Json} {bs : List Block}
    (hd : (Json.object [("blocks", .object [("blocks", .array js)])]).depth
      ≤ Json.Reader.maxDepth)
    (hbs : (Json.rereadEach js).mapM Block.ofJson = .ok bs) :
    Workspace.read (Json.object [("blocks", .object [("blocks", .array js)])]).text
      = .ok ⟨bs⟩ := by
  have hread : Workspace.ofJson
      (Json.object [("blocks", .object [("blocks", .array js)])]).reread
        = do return ⟨← (Json.rereadEach js).mapM Block.ofJson⟩ := by
    rw [← Json.elements_mapM]
    rfl
  rw [Workspace.read, Json.read_text hd]
  refine hread.trans ?_
  rw [hbs]
  rfl

theorem read_singleWorkspace {j : Json} {b : Block}
    (hd : (singleWorkspaceJson j).depth ≤ Json.Reader.maxDepth)
    (hb : Block.ofJson j.reread = .ok b) :
    Workspace.read (singleWorkspaceJson j).text = .ok ⟨[b]⟩ := by
  apply read_workspace hd
  rw [Json.rereadEach, Json.rereadEach, List.mapM_cons, hb]
  rfl

theorem read_typedWorkspace (typed : String) :
    Workspace.read (typedWorkspaceJson typed).text
      = .ok ⟨[conditionBlock (numberBlock typed)]⟩ := by
  apply read_singleWorkspace
  · simp [singleWorkspaceJson, conditionBlockJson, numberBlockJson, Json.depth, Json.depthMembers,
      Json.depthEach, Json.Reader.maxDepth]
  · exact ofJson_pluggedBlock "automation" "CONDITIONS" rfl (ofJson_numberBlock typed)

theorem automations_typedWorkspace (typed : String) :
    (Workspace.automations ⟨[conditionBlock (numberBlock typed)]⟩).value = typedProgram typed :=
  rfl

theorem expr_numberBlock (typed : String) : (numberBlock typed).expr.value
    = some (.number ((Number.read? (Text.trim typed.toList)).getD .zero)) := by
  have htype : ValueBlock.ofType (numberBlock typed).type = .number :=
    (by decide : ValueBlock.ofType "const_number" = .number)
  have hfield : (numberBlock typed).fieldValue "VALUE" = some (.string typed) := rfl
  rw [Block.expr]
  simp only [htype, hfield, Option.bind_some, Json.numberField, Noticed.value_pure]

theorem isFinite_typedProgram (typed : String) : (typedProgram typed).isFinite
    = ((Number.read? (Text.trim typed.toList)).getD .zero).isFinite := by
  simp [typedProgram, expr_numberBlock, Program.isFinite, Automation.isFinite, Automation.exprs,
    Expr.areFinite, Expr.nodes, Expr.number, Constant.isFinite]

/-- What is typed as a common number is sent back and gives the same code. -/
theorem generate_transpiled_typed :
    let s : Service := {
      quoting := .escaped
      client := { runtime := .absent, baseUrl := { scheme := "http", path := .plain "" } } }
    let text := (typedWorkspaceJson " 21.5").text
    let p := typedProgram " 21.5"
    let r : Request := {
      method := "POST"
      target := "/api/v1/generate"
      contentType := some "application/json"
      body := p.toJson.text }
    (Json.read p.toJson.text >>= Program.ofJson).map (Program.code .escaped)
        = (transpileText .escaped text).map Transpiled.code
      ∧ s.generate r = .plain (p.code .escaped) := by
  intro s text p r
  have hp : p.isFinite := by
    rw [isFinite_typedProgram]
    decide
  obtain ⟨-, -, hcode, hresponse⟩ := generate_transpiled (read_typedWorkspace " 21.5") s
  rw [automations_typedWorkspace] at hcode hresponse
  exact ⟨hcode.2 hp, (hresponse r (by decide) rfl).trans (if_pos hp)⟩

/-- Infinity can be typed, but the automation with it is not read back. -/
theorem not_read_typed_infinity :
    let text := (typedWorkspaceJson "inf").text
    let p := typedProgram "inf"
    (∃ w, Workspace.read text = .ok w ∧ w.automations.value = p)
      ∧ (transpileText .escaped text).map Transpiled.code
        = .ok "automation \"\" (None) \x7b\nif 0\n\x7d\n\n"
      ∧ (Json.read p.toJson.text >>= Program.ofJson) = .error (.misfit (.wrongType .null)) := by
  intro text p
  have hread := read_typedWorkspace "inf"
  have hp : p.isFinite = false := by
    rw [isFinite_typedProgram]
    decide
  obtain ⟨hw, hd⟩ := Workspace.writable_automations hread
  rw [automations_typedWorkspace] at hw hd
  refine ⟨⟨_, hread, rfl⟩, ?_, by rw [Program.read_text hw hd, hp]; rfl⟩
  rw [code_transpileText hread, automations_typedWorkspace, typedProgram, expr_numberBlock]
  exact congrArg Except.ok (by decide)

end Studio
end HomeScript
