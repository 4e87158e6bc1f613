import HomeScript.Proofs.Automation.Wire
import HomeScript.Proofs.Json.Record

/-! # Programs that are read back

A program is read back from its written form exactly if its numbers have such a form and its
devices can be told from their text. Whatever is read has such devices.
-/

namespace HomeScript
open Json (Stage Part Record bind_eq_ok map_eq_ok exists_of_mapM)

/-! ## Handles that are read -/

namespace Handle

theorem isWellFormed_of_ofJson {j : Json} {h : Handle} (hj : ofJson j = .ok h) :
    h.IsWellFormed := by
  obtain ⟨text, -, hj⟩ := bind_eq_ok.1 hj
  cases hp : parse text with
  | ok d =>
    rw [hp] at hj
    obtain rfl := Except.ok.inj hj
    exact isWellFormed_of_parse hp
  | error e =>
    rw [hp] at hj
    cases hj

end Handle

/-! ## Expressions and automations that are read -/

namespace Expr

/-- What holds of the expressions that can be read, from those that are read within them. -/
theorem ofJson_induction {motive : Expr → Prop}
    (constant : ∀ c, motive (.constant c))
    (device : ∀ d : Handle, d.IsWellFormed → motive (.device d))
    (event : ∀ name, motive (.event name))
    (call : ∀ f arguments, (∀ a, some a ∈ arguments → motive a) → motive (.call f arguments))
    (binary : ∀ op left right, (∀ a, left = some a → motive a) →
      (∀ a, right = some a → motive a) → motive (.binary op left right))
    (negation : ∀ operand, (∀ a, operand = some a → motive a) → motive (.negation operand))
    (stage : Stage) (j : Json) (e : Expr) (h : ofJson stage j = .ok e) : motive e := by
  have ih (p : Part j) {a : Expr} (ha : ofJson .held p.1 = .ok a) : motive a :=
    ofJson_induction constant device event call binary negation .held p.1 a ha
  have optional {r : Record (Part j)} {field : String} {o : Option Expr}
      (ho : r.optional field none (Json.nullable (ofJson .held ·.1)) = .ok o) :
      ∀ a, o = some a → motive a := by
    rintro a rfl
    obtain ⟨p, hp⟩ := Json.exists_of_optional ho
    exact ih p hp
  rw [ofJson] at h
  split at h
  · cases h
  simp only [bind_eq_ok] at h
  obtain ⟨⟨tag, body⟩, -, variant, -, h⟩ := h
  cases variant with
  | constant =>
    obtain ⟨r, -, h⟩ := bind_eq_ok.1 h
    obtain ⟨c, -, rfl⟩ := map_eq_ok.1 h
    exact constant c
  | device =>
    obtain ⟨r, -, h⟩ := bind_eq_ok.1 h
    obtain ⟨d, hd, rfl⟩ := map_eq_ok.1 h
    obtain ⟨p, -, hp⟩ := Json.required_eq_ok hd
    exact device d (Handle.isWellFormed_of_ofJson hp)
  | event =>
    obtain ⟨r, -, h⟩ := bind_eq_ok.1 h
    obtain ⟨name, -, rfl⟩ := map_eq_ok.1 h
    exact event name
  | call =>
    simp only [bind_eq_ok] at h
    obtain ⟨r, -, f, -, h⟩ := h
    obtain ⟨arguments, harguments, rfl⟩ := map_eq_ok.1 h
    refine call f arguments fun a ha => ?_
    rcases Json.optional_eq_ok harguments with rfl | ⟨p, -, hread⟩
    · cases ha
    · obtain ⟨ps, -, hread⟩ := bind_eq_ok.1 hread
      obtain ⟨q, -, hq⟩ := exists_of_mapM hread _ ha
      -- The argument is a part of the list of arguments, and only that is a part of the value.
      exact ih ⟨q.1, q.2.trans p.2⟩ (Json.nullable_eq_ok hq)
  | binary =>
    simp only [bind_eq_ok] at h
    obtain ⟨r, -, op, -, left, hleft, right, hright, h⟩ := h
    obtain rfl := Except.ok.inj h
    exact binary op left right (optional hleft) (optional hright)
  | negation =>
    obtain ⟨r, -, h⟩ := bind_eq_ok.1 h
    obtain ⟨operand, hoperand, rfl⟩ := map_eq_ok.1 h
    exact negation operand (optional hoperand)
termination_by sizeOf j
decreasing_by exact p.2

theorem handlesWellFormed_optionNodes {o : Option Expr}
    (h : ∀ e, o = some e → HandlesWellFormed e.nodes) : HandlesWellFormed (optionNodes o) := by
  cases o with
  | none => simp [HandlesWellFormed, optionNodes]
  | some e => exact h e rfl

/-- All devices of an expression that is read can be told from their text. -/
theorem handlesWellFormed_of_ofJson {stage : Stage} {j : Json} {e : Expr}
    (h : ofJson stage j = .ok e) : HandlesWellFormed e.nodes := by
  refine ofJson_induction (motive := fun e => HandlesWellFormed e.nodes)
    ?constant ?device ?event ?call ?binary ?negation stage j e h
  case constant =>
    intro c
    simp [HandlesWellFormed, nodes]
  case device =>
    intro d hd
    simpa [HandlesWellFormed, nodes] using hd
  case event =>
    intro name
    simp [HandlesWellFormed, nodes]
  case call =>
    intro f arguments ih d hd
    simp only [nodes, List.mem_cons, reduceCtorEq, false_or, argumentNodes_eq,
      List.mem_flatMap] at hd
    obtain ⟨o, ho, hd⟩ := hd
    exact handlesWellFormed_optionNodes (fun a ha => ih a (ha ▸ ho)) d hd
  case binary =>
    intro op left right hleft hright d hd
    simp only [nodes, List.mem_cons, reduceCtorEq, false_or, List.mem_append] at hd
    rcases hd with hd | hd
    · exact handlesWellFormed_optionNodes hleft d hd
    · exact handlesWellFormed_optionNodes hright d hd
  case negation =>
    intro operand ih d hd
    simp only [nodes, List.mem_cons, reduceCtorEq, false_or] at hd
    exact handlesWellFormed_optionNodes ih d hd

theorem handlesWellFormed_of_optional {stage : Stage} {j : Json} {r : Record (Part j)}
    {field : String} {o : Option Expr}
    (h : r.optional field none (Json.nullable (ofJson stage ·.1)) = .ok o) :
    HandlesWellFormed (optionNodes o) := by
  apply handlesWellFormed_optionNodes
  rintro e rfl
  obtain ⟨p, hp⟩ := Json.exists_of_optional h
  exact handlesWellFormed_of_ofJson hp

end Expr

theorem Trigger.isWellFormed_of_ofJson {j : Json} {e : String} {d : Handle}
    (h : Trigger.ofJson j = .ok (.deviceEvent e d)) : d.IsWellFormed := by
  rw [ofJson] at h
  split at h
  · cases h
  simp only [bind_eq_ok] at h
  obtain ⟨⟨tag, body⟩, -, variant, -, h⟩ := h
  cases variant with
  | deviceEvent =>
    simp only [bind_eq_ok] at h
    obtain ⟨r, -, name, -, device, hdevice, h⟩ := h
    cases h
    obtain ⟨p, -, hp⟩ := Json.required_eq_ok hdevice
    exact Handle.isWellFormed_of_ofJson hp
  | event | time =>
    obtain ⟨r, -, h⟩ := bind_eq_ok.1 h
    obtain ⟨_, -, h⟩ := map_eq_ok.1 h
    cases h

theorem Guard.handlesWellFormed_of_ofJson {j : Json} {g : Guard} (h : Guard.ofJson j = .ok g) :
    Expr.HandlesWellFormed (Expr.optionNodes g.expr) := by
  simp only [ofJson, bind_eq_ok] at h
  obtain ⟨r, -, e, he, h⟩ := h
  cases h
  exact Expr.handlesWellFormed_of_optional he

theorem Action.handlesWellFormed_of_ofJson {j : Json} {a : Action} (h : Action.ofJson j = .ok a) :
    Expr.HandlesWellFormed (Expr.optionNodes a.call) := by
  simp only [ofJson, bind_eq_ok] at h
  obtain ⟨r, -, e, he, h⟩ := h
  cases h
  exact Expr.handlesWellFormed_of_optional he

theorem Automation.handlesWellFormed_of_ofJson {j : Json} {a : Automation}
    (h : Automation.ofJson j = .ok a) : a.HandlesWellFormed := by
  simp only [ofJson, bind_eq_ok] at h
  obtain ⟨r, -, id, -, name, -, trigger, htrigger, condition, hcondition, guards, hguards,
    actions, hactions, h⟩ := h
  obtain rfl := Except.ok.inj h
  constructor
  · rintro e d rfl
    obtain ⟨p, hp⟩ := Json.exists_of_optional htrigger
    exact Trigger.isWellFormed_of_ofJson hp
  · intro d hd
    simp only [flatMap_nodes_exprs, List.mem_append, List.mem_flatMap] at hd
    rcases hd with (hd | ⟨g, hg, hd⟩) | ⟨c, hc, hd⟩
    · exact Expr.handlesWellFormed_of_optional hcondition d hd
    · rcases Json.optional_eq_ok hguards with rfl | ⟨p, -, hread⟩
      · cases hg
      · obtain ⟨ps, -, hread⟩ := bind_eq_ok.1 hread
        obtain ⟨q, -, hq⟩ := exists_of_mapM hread g hg
        exact Guard.handlesWellFormed_of_ofJson hq d hd
    · rcases Json.optional_eq_ok hactions with rfl | ⟨p, -, hread⟩
      · cases hc
      · obtain ⟨ps, -, hread⟩ := bind_eq_ok.1 hread
        obtain ⟨q, -, hq⟩ := exists_of_mapM hread c hc
        exact Action.handlesWellFormed_of_ofJson hq d hd

namespace Program

theorem handlesWellFormed_of_ofJson {j : Json} {p : Program} (h : Program.ofJson j = .ok p) :
    ∀ a ∈ p, a.HandlesWellFormed := by
  intro a ha
  obtain ⟨ps, -, h⟩ := bind_eq_ok.1 h
  obtain ⟨q, -, hq⟩ := exists_of_mapM h a ha
  exact Automation.handlesWellFormed_of_ofJson hq

/-! ## Reading what has been written -/

theorem read_text {p : Program} (hw : ∀ a ∈ p, a.HandlesWellFormed)
    (hd : p.toJson.depth ≤ Json.Reader.maxDepth) :
    (Json.read p.toJson.text >>= Program.ofJson) = Json.readIf p.isFinite p := by
  rw [Json.read_text hd]
  exact Program.ofJson_reread hw

theorem readFirst_text {p : Program} (hw : ∀ a ∈ p, a.HandlesWellFormed)
    (hd : p.toJson.depth ≤ Json.Reader.maxDepth) :
    (Json.readFirst p.toJson.text >>= Program.ofJson) = Json.readIf p.isFinite p := by
  rw [Json.readFirst_text hd]
  exact Program.ofJson_reread hw

/-- A program that is not nested too deep is read back exactly if its numbers are finite and its
devices can be told from their text. -/
theorem read_text_eq_self_iff {p : Program} (hd : p.toJson.depth ≤ Json.Reader.maxDepth) :
    (Json.read p.toJson.text >>= Program.ofJson) = .ok p
      ↔ p.isFinite ∧ ∀ a ∈ p, a.HandlesWellFormed := by
  constructor
  · intro h
    obtain ⟨j, -, hj⟩ := bind_eq_ok.1 h
    have hw := handlesWellFormed_of_ofJson hj
    rw [read_text hw hd] at h
    cases hp : p.isFinite with
    | true => exact ⟨rfl, hw⟩
    | false =>
      rw [hp] at h
      cases h
  · rintro ⟨hp, hw⟩
    rw [read_text hw hd, hp]
    rfl

/-- Text of several lines, an `@` in the name of a device, and parts that are left out. -/
theorem read_text_eq_self_iff_sparse :
    let lamp : Handle := ⟨"hue", "lamp@1"⟩
    let p : Program := [{ name := "" }, {
      id := some "b\n7"
      name := "say \"\\\""
      trigger := some (.deviceEvent "" lamp)
      condition := some (.negation none)
      guards := [⟨none⟩, ⟨some (.binary .lesser (some .null) (some (.number (.ofInt 21))))⟩]
      actions := [⟨none⟩, ⟨some (.call .setDeviceTemperature [none, some (.device lamp)])⟩] }]
    p.toJson.depth ≤ Json.Reader.maxDepth ∧ p.isFinite ∧ (∀ a ∈ p, a.HandlesWellFormed)
      ∧ (Json.read p.toJson.text >>= Program.ofJson) = .ok p := by
  intro lamp p
  have hd : p.toJson.depth ≤ Json.Reader.maxDepth := by decide
  have hp : p.isFinite := by decide
  have hlamp : lamp.IsWellFormed := by decide
  have hw : ∀ a ∈ p, a.HandlesWellFormed := by
    rw [List.forall_mem_cons, List.forall_mem_singleton]
    constructor <;> constructor <;> simp [Automation.exprs, Expr.HandlesWellFormed, Expr.nodes,
      Expr.argumentNodes, Expr.optionNodes, Expr.null, Expr.number, hlamp]
  exact ⟨hd, hp, hw, (read_text_eq_self_iff hd).2 ⟨hp, hw⟩⟩

end Program
end HomeScript
