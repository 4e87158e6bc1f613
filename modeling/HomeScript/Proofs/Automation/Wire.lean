import HomeScript.Automation.Wire
import HomeScript.Proofs.Device.Handle
import HomeScript.Proofs.Json.Reading
import HomeScript.Proofs.Script.Lines

/-! # Written programs are read back

A program that has been written is read as itself if all its numbers are finite. Other numbers are
written as null, which is no number.
-/

namespace HomeScript
open Json (Fault Stage)

/-! ## Values with numbers -/

namespace Json

/-- What is read of a value: the value, or a null where a number should be. -/
def readIf {α : Type} (finite : Bool) (x : α) : Except Fault α :=
  if finite then .ok x else .error (.misfit (.wrongType .null))

variable {α β : Type}

theorem map_readIf (p : Bool) (x : α) (f : α → β) : f <$> readIf p x = readIf p (f x) := by
  cases p <;> rfl

theorem readIf_bind {p q : Bool} {x : α} {y : β} {f : α → Except Fault β}
    (h : f x = readIf q y) : (readIf p x >>= f) = readIf (p && q) y := by
  cases p with
  | true => exact h
  | false => rfl

theorem mapM_readIf {xs : List α} {write : α → Json} {read : Json → Except Fault α} {p : α → Bool}
    (h : ∀ x ∈ xs, read (write x) = readIf (p x) x) :
    (xs.map write).mapM read = readIf (xs.all p) xs := by
  induction xs with
  | nil => rfl
  | cons x xs ih =>
    obtain ⟨hx, hxs⟩ := List.forall_mem_cons.1 h
    rw [List.map_cons, List.mapM_cons, hx, List.all_cons]
    apply readIf_bind
    rw [ih hxs]
    exact map_readIf _ _ _

theorem rereadEach_map (xs : List α) (f : α → Json) :
    rereadEach (xs.map f) = xs.map fun x => (f x).reread := by
  induction xs with
  | nil => rfl
  | cons x xs ih => rw [List.map_cons, rereadEach, ih, List.map_cons]

/-- What is read where a null stands for nothing. -/
def unlessNull (read : Json → Except Fault α) (j : Json) : Except Fault (Option α) :=
  if j.isNull then .ok none else some <$> read j

/-- Reading the elements of an array does not depend on where they are found. -/
theorem elements_mapM (xs : List Json) (read : Json → Except Fault α) :
    (do (← (array xs).elements).mapM (read ·.1)) = xs.mapM read := by
  change (xs.attach.map _).mapM _ = _
  rw [List.mapM_map]
  simp

/-- Nor does reading the members of an object. -/
theorem members_mapM (ms : List (String × Json))
    (read : String × Json → Except Fault α) :
    (do (← (object ms).members).mapM fun m => read (m.1, m.2.1)) = ms.mapM read := by
  change (ms.attach.map _).mapM _ = _
  rw [List.mapM_map]
  change ms.attach.mapM (read ∘ Subtype.val) = _
  rw [← List.mapM_map, List.attach_map_subtype_val]

end Json

/-! ## Expressions -/

namespace Handle

theorem ofJson_reread {h : Handle} (hw : h.IsWellFormed) : ofJson h.toJson.reread = .ok h := by
  simp [toJson, Json.reread, ofJson, Json.asString, parse_text hw]

end Handle

def Constant.isFinite : Constant → Bool
  | number x => x.isFinite
  | _ => true

theorem Constant.isReadable_reread (c : Constant) : c.toJson.reread.isReadable := by
  cases c with
  | number x =>
    simp only [toJson, Json.reread, Json.rereadMembers]
    split <;> rfl
  | _ => rfl

theorem Constant.ofJson_reread (c : Constant) :
    Constant.ofJson c.toJson.reread = Json.readIf c.isFinite c := by
  cases c with
  | number x =>
    by_cases hx : x.isFinite
    · simp only [toJson, Json.reread, Json.rereadMembers, hx, if_true, isFinite]
      rfl
    · simp only [toJson, Json.reread, Json.rereadMembers, hx, isFinite]
      rfl
  | _ => rfl

namespace Expr

/-- Whether all numbers among some expressions have a written form. -/
def areFinite (es : List Expr) : Bool :=
  es.all fun
    | constant c => c.isFinite
    | _ => true

def isFinite (e : Expr) : Bool :=
  areFinite e.nodes

/-- All devices among some expressions can be told from their text. -/
def HandlesWellFormed (es : List Expr) : Prop :=
  ∀ h, device h ∈ es → h.IsWellFormed

theorem argumentNodes_eq (arguments : List (Option Expr)) :
    argumentNodes arguments = arguments.flatMap optionNodes := by
  induction arguments with
  | nil => rfl
  | cons a rest ih => rw [argumentNodes, ih, List.flatMap_cons]

theorem areFinite_append (es fs : List Expr) :
    areFinite (es ++ fs) = (areFinite es && areFinite fs) :=
  List.all_append

theorem areFinite_mono {es fs : List Expr} (h : areFinite es) (hs : fs ⊆ es) : areFinite fs :=
  List.all_eq_true.2 fun e he => List.all_eq_true.1 h e (hs he)

theorem HandlesWellFormed.mono {es fs : List Expr} (h : HandlesWellFormed es) (hs : fs ⊆ es) :
    HandlesWellFormed fs :=
  fun d hd => h d (hs hd)

/-! Each variant is read field by field. -/

def ofOption (stage : Stage) : Json → Except Fault (Option Expr) :=
  Json.unlessNull (ofJson stage)

section
variable (stage : Stage) {x y : Json}

theorem ofJson_constant {j : Json} (hj : j.isReadable) :
    ofJson stage (.object [("type", .string "constant"), ("value", j)])
      = constant <$> Constant.ofJson j := by
  rw [ofJson, if_neg (by simp [Json.isReadable, Json.areReadableMembers, hj])]
  rfl

theorem ofJson_device (j : Json) (hj : j.isReadable) :
    ofJson stage (.object [("type", .string "device"), ("handle", j)])
      = device <$> Handle.ofJson j := by
  rw [ofJson, if_neg (by simp [Json.isReadable, Json.areReadableMembers, hj])]
  rfl

theorem ofJson_event (name : String) :
    ofJson stage (.object [("type", .string "event"), ("name", .string name)])
      = .ok (event name) := by
  rw [ofJson, if_neg (by simp [Json.isReadable, Json.areReadableMembers])]
  rfl

theorem ofJson_call (f : Builtin) {xs : List Json} (hx : Json.areReadable xs) :
    ofJson stage (.object [("type", .string "call"), ("function", f.toJson), ("args", .array xs)])
      = call f <$> xs.mapM (ofOption .held) := by
  rw [ofJson, if_neg (by
    simp [Json.isReadable, Json.areReadableMembers, Builtin.toJson, hx]), ← Json.elements_mapM]
  cases f <;> rfl

theorem ofJson_binary (op : Operator) (hx : x.isReadable) (hy : y.isReadable) :
    ofJson stage (.object [("type", .string "binary"), ("op", op.toJson), ("left", x),
      ("right", y)]) = do return binary op (← ofOption .held x) (← ofOption .held y) := by
  rw [ofJson, if_neg (by
    simp [Json.isReadable, Json.areReadableMembers, Operator.toJson, hx, hy])]
  cases op <;> rfl

theorem ofJson_negation (hx : x.isReadable) :
    ofJson stage (.object [("type", .string "not"), ("operand", x)])
      = negation <$> ofOption .held x := by
  rw [ofJson, if_neg (by simp [Json.isReadable, Json.areReadableMembers, hx])]
  rfl

end

/-! The whole expression is read as it was written. -/

mutual

theorem isReadable_reread : (e : Expr) → e.toJson.reread.isReadable
  | constant c => by
    simp [toJson, Json.reread, Json.rereadMembers, Json.isReadable, Json.areReadableMembers,
      c.isReadable_reread]
  | device _ | event _ => rfl
  | call f arguments => by
    simp [toJson, Builtin.toJson, Json.reread, Json.rereadMembers, Json.isReadable,
      Json.areReadableMembers, areReadable_reread arguments]
  | binary op left right => by
    simp [toJson, Operator.toJson, Json.reread, Json.rereadMembers, Json.isReadable,
      Json.areReadableMembers, isReadable_rereadOption left, isReadable_rereadOption right]
  | negation operand => by
    simp [toJson, Json.reread, Json.rereadMembers, Json.isReadable, Json.areReadableMembers,
      isReadable_rereadOption operand]

theorem isReadable_rereadOption : (a : Option Expr) → (optionToJson a).reread.isReadable
  | some e => isReadable_reread e
  | none => rfl

theorem areReadable_reread :
    (arguments : List (Option Expr)) →
      Json.areReadable (Json.rereadEach (argumentsToJson arguments))
  | [] => rfl
  | a :: rest => by
    simp [argumentsToJson, Json.rereadEach, Json.areReadable, isReadable_rereadOption a,
      areReadable_reread rest]

end

theorem isNull_reread (e : Expr) : e.toJson.reread.isNull = false := by
  cases e <;> rfl

mutual

/-- An expression is read from its written form if all its numbers are finite. -/
theorem ofJson_reread (stage : Stage) : (e : Expr) → HandlesWellFormed e.nodes →
    ofJson stage e.toJson.reread = Json.readIf e.isFinite e
  | constant c, _ => by
    refine (ofJson_constant stage c.isReadable_reread).trans ?_
    rw [Constant.ofJson_reread, Json.map_readIf]
    simp [isFinite, areFinite, nodes]
  | device h, hw => by
    refine (ofJson_device stage _ rfl).trans ?_
    rw [Handle.ofJson_reread (hw h (self_mem_nodes _))]
    rfl
  | event name, _ => ofJson_event stage name
  | call f arguments, hw => by
    refine (ofJson_call stage f (areReadable_reread arguments)).trans ?_
    rw [mapM_ofOption arguments (hw.mono (List.subset_cons_self _ _)), Json.map_readIf]
    simp [isFinite, areFinite, nodes]
  | binary op left right, hw => by
    refine (ofJson_binary stage op (isReadable_rereadOption left)
      (isReadable_rereadOption right)).trans ?_
    rw [ofOption_reread .held left (hw.mono (by simp [nodes])),
      ofOption_reread .held right (hw.mono (by simp [nodes]))]
    have hfinite : (binary op left right).isFinite
        = (areFinite (optionNodes left) && areFinite (optionNodes right)) := by
      simp [isFinite, areFinite, nodes]
    rw [hfinite]
    apply Json.readIf_bind
    exact Json.map_readIf _ right (binary op left)
  | negation operand, hw => by
    refine (ofJson_negation stage (isReadable_rereadOption operand)).trans ?_
    rw [ofOption_reread .held operand (hw.mono (List.subset_cons_self _ _)), Json.map_readIf]
    simp [isFinite, areFinite, nodes]

theorem ofOption_reread (stage : Stage) : (a : Option Expr) → HandlesWellFormed (optionNodes a) →
    ofOption stage (optionToJson a).reread = Json.readIf (areFinite (optionNodes a)) a
  | some e, hw => by
    rw [optionToJson, ofOption, Json.unlessNull, isNull_reread, ofJson_reread stage e hw]
    exact Json.map_readIf _ _ _
  | none, _ => rfl

theorem mapM_ofOption : (arguments : List (Option Expr)) →
    HandlesWellFormed (argumentNodes arguments) →
    (Json.rereadEach (argumentsToJson arguments)).mapM (ofOption .held)
      = Json.readIf (areFinite (argumentNodes arguments)) arguments
  | [], _ => rfl
  | a :: rest, hw => by
    rw [argumentsToJson, Json.rereadEach, List.mapM_cons,
      ofOption_reread .held a (hw.mono (by simp [argumentNodes])), argumentNodes, areFinite_append]
    apply Json.readIf_bind
    rw [mapM_ofOption rest (hw.mono (by simp [argumentNodes]))]
    exact Json.map_readIf _ _ _

end

end Expr

/-! ## Automations -/

theorem Trigger.ofJson_reread {t : Trigger}
    (hw : ∀ e h, t = .deviceEvent e h → h.IsWellFormed) :
    Trigger.ofJson t.toJson.reread = .ok t := by
  cases t with
  | deviceEvent e h =>
    have hread : Trigger.ofJson (deviceEvent e h).toJson.reread
        = deviceEvent e <$> Handle.ofJson h.toJson.reread := rfl
    rw [hread, Handle.ofJson_reread (hw e h rfl)]
    rfl
  | _ => rfl

theorem Guard.ofJson_reread {g : Guard} (hw : Expr.HandlesWellFormed (Expr.optionNodes g.expr)) :
    Guard.ofJson g.toJson.reread = Json.readIf (Expr.areFinite (Expr.optionNodes g.expr)) g := by
  have hread : Guard.ofJson g.toJson.reread
      = Guard.mk <$> Expr.ofOption .streamed (Expr.optionToJson g.expr).reread := rfl
  rw [hread, Expr.ofOption_reread .streamed _ hw, Json.map_readIf]

theorem Action.ofJson_reread {a : Action} (hw : Expr.HandlesWellFormed (Expr.optionNodes a.call)) :
    Action.ofJson a.toJson.reread = Json.readIf (Expr.areFinite (Expr.optionNodes a.call)) a := by
  have hread : Action.ofJson a.toJson.reread
      = Action.mk <$> Expr.ofOption .streamed (Expr.optionToJson a.call).reread := rfl
  rw [hread, Expr.ofOption_reread .streamed _ hw, Json.map_readIf]

namespace Automation

/-- Whether all numbers of an automation have a written form. -/
def isFinite (a : Automation) : Bool :=
  Expr.areFinite (a.exprs.flatMap Expr.nodes)

/-- All devices of an automation can be told from their text. -/
structure HandlesWellFormed (a : Automation) : Prop where
  trigger : ∀ e h, a.trigger = some (.deviceEvent e h) → h.IsWellFormed
  exprs : Expr.HandlesWellFormed (a.exprs.flatMap Expr.nodes)

theorem ofJson_object (id trigger condition : Json) (name : String) (guards actions : List Json) :
    ofJson (.object [("id", id), ("name", .string name), ("trigger", trigger),
      ("condition", condition), ("conditions", .array guards), ("actions", .array actions)]) = do
    let id ← Json.unlessNull Json.asString id
    let trigger ← Json.unlessNull Trigger.ofJson trigger
    let condition ← Expr.ofOption .streamed condition
    let guards ← guards.mapM Guard.ofJson
    let actions ← actions.mapM Action.ofJson
    return { id, name, trigger, condition, guards, actions } := by
  rw [← Json.elements_mapM guards, ← Json.elements_mapM actions]
  rfl

theorem unlessNull_id (id : Option String) :
    Json.unlessNull Json.asString (textOrNull id).reread = .ok id := by
  cases id <;> rfl

theorem unlessNull_trigger {t : Option Trigger}
    (hw : ∀ e h, t = some (.deviceEvent e h) → h.IsWellFormed) :
    Json.unlessNull Trigger.ofJson ((t.map Trigger.toJson).getD .null).reread = .ok t := by
  cases t with
  | none => rfl
  | some t =>
    have hnull : t.toJson.reread.isNull = false := by cases t <;> rfl
    rw [Option.map_some, Option.getD_some, Json.unlessNull, hnull,
      Trigger.ofJson_reread fun e h ht => hw e h (by rw [ht])]
    rfl

/-! The expressions of an automation, where they are left out or not. -/

theorem flatMap_nodes_filterMap {α : Type} (xs : List α) (f : α → Option Expr) :
    (xs.filterMap f).flatMap Expr.nodes = xs.flatMap fun x => Expr.optionNodes (f x) := by
  induction xs with
  | nil => rfl
  | cons x xs ih =>
    rw [List.flatMap_cons, ← ih]
    cases h : f x <;> simp [h, Expr.optionNodes]

theorem flatMap_nodes_exprs (a : Automation) :
    a.exprs.flatMap Expr.nodes = Expr.optionNodes a.condition
      ++ a.guards.flatMap (fun g => Expr.optionNodes g.expr)
      ++ a.actions.flatMap (fun c => Expr.optionNodes c.call) := by
  rw [exprs, List.flatMap_append, List.flatMap_append, flatMap_nodes_filterMap,
    flatMap_nodes_filterMap]
  cases a.condition <;> simp [Expr.optionNodes]

theorem isFinite_eq (a : Automation) : a.isFinite
    = (Expr.areFinite (Expr.optionNodes a.condition)
      && (a.guards.all fun g => Expr.areFinite (Expr.optionNodes g.expr))
      && a.actions.all fun c => Expr.areFinite (Expr.optionNodes c.call)) := by
  simp only [isFinite, flatMap_nodes_exprs, Expr.areFinite, List.all_append, List.all_flatMap]

theorem nodes_condition_subset (a : Automation) :
    Expr.optionNodes a.condition ⊆ a.exprs.flatMap Expr.nodes := by
  rw [flatMap_nodes_exprs, List.append_assoc]
  exact List.subset_append_left _ _

theorem nodes_guard_subset {a : Automation} {g : Guard} (hg : g ∈ a.guards) :
    Expr.optionNodes g.expr ⊆ a.exprs.flatMap Expr.nodes := by
  intro n hn
  rw [flatMap_nodes_exprs]
  apply List.mem_append_left
  apply List.mem_append_right
  exact List.mem_flatMap.2 ⟨g, hg, hn⟩

theorem nodes_action_subset {a : Automation} {c : Action} (hc : c ∈ a.actions) :
    Expr.optionNodes c.call ⊆ a.exprs.flatMap Expr.nodes := by
  intro n hn
  rw [flatMap_nodes_exprs]
  apply List.mem_append_right
  exact List.mem_flatMap.2 ⟨c, hc, hn⟩

theorem ofJson_reread {a : Automation} (hw : a.HandlesWellFormed) :
    Automation.ofJson a.toJson.reread = Json.readIf a.isFinite a := by
  have hread : Automation.ofJson a.toJson.reread = _ :=
    ofJson_object (textOrNull a.id).reread ((a.trigger.map Trigger.toJson).getD .null).reread
      (Expr.optionToJson a.condition).reread a.name
      (Json.rereadEach (a.guards.map Guard.toJson)) (Json.rereadEach (a.actions.map Action.toJson))
  have hguards := Json.mapM_readIf fun g hg =>
    Guard.ofJson_reread (hw.exprs.mono (nodes_guard_subset hg))
  have hactions := Json.mapM_readIf fun c hc =>
    Action.ofJson_reread (hw.exprs.mono (nodes_action_subset hc))
  have hcondition := Expr.ofOption_reread .streamed _ (hw.exprs.mono (nodes_condition_subset a))
  rw [hread, unlessNull_id, unlessNull_trigger hw.trigger, hcondition, Json.rereadEach_map,
    Json.rereadEach_map, hguards, hactions, isFinite_eq, Bool.and_assoc]
  apply Json.readIf_bind
  apply Json.readIf_bind
  exact Json.map_readIf _ _ _

end Automation

namespace Program

def isFinite (p : Program) : Bool :=
  p.all Automation.isFinite

/-- A program is read from its written form if all its numbers are finite. -/
theorem ofJson_reread {p : Program} (hw : ∀ a ∈ p, a.HandlesWellFormed) :
    Program.ofJson p.toJson.reread = Json.readIf p.isFinite p := by
  have hread : Program.ofJson p.toJson.reread
      = (p.map fun a => a.toJson.reread).mapM Automation.ofJson := by
    rw [← Json.rereadEach_map, ← Json.elements_mapM]
    rfl
  rw [hread]
  exact Json.mapM_readIf fun a ha => Automation.ofJson_reread (hw a ha)

end Program
end HomeScript
