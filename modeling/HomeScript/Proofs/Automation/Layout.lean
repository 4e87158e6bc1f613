import HomeScript.Proofs.Automation.Wire
import HomeScript.Proofs.Json.Matching

/-! # The layout of written programs

Where an object stands for a part of a program, its members may stand in any order, and there may be
others that are none of its fields. Laid out anew in this way, at any depth, a value is read as the
same program.
-/

namespace HomeScript
open Json (Fault Stage Part Record Body Yields Alike)

namespace Json

theorem areReadableMembers_iff {ms : List (String × Json)} :
    areReadableMembers ms ↔ ∀ m ∈ ms, m.2.isReadable := by
  induction ms with
  | nil => simp [areReadableMembers]
  | cons m ms ih => simp [areReadableMembers, ih]

theorem areReadable_iff {js : List Json} : areReadable js ↔ ∀ j ∈ js, j.isReadable := by
  induction js with
  | nil => simp [areReadable]
  | cons j js ih => simp [areReadable, ih]

end Json

/-- The rules that written programs follow: what a value stands for in one. -/
inductive Rule where
  | automation
  | trigger
  | guard
  | action
  | expr
  | constant
  /-- A text, a number, a device, a function or an operator. -/
  | leaf
  | optional (r : Rule)
  | list (r : Rule)

/-- The fields of a record in their order, with what stands in them. -/
abbrev Shape := List (String × Rule)

namespace Shape

def names (s : Shape) : List String :=
  s.map Prod.fst

def rule (s : Shape) (field : String) : Rule :=
  (s.lookup field).getD .leaf

end Shape

namespace Trigger.Tag

def shape : Trigger.Tag → Shape
  | event => [("event", .leaf)]
  | deviceEvent => [("event", .leaf), ("device", .leaf)]
  | time => [("time", .leaf)]

end Trigger.Tag

namespace Expr.Tag

def shape : Expr.Tag → Shape
  | constant => [("value", .constant)]
  | device => [("handle", .leaf)]
  | event => [("name", .leaf)]
  | call => [("function", .leaf), ("args", .list (.optional .expr))]
  | binary => [("op", .leaf), ("left", .optional .expr), ("right", .optional .expr)]
  | negation => [("operand", .optional .expr)]

end Expr.Tag

namespace Rule

/-- The fields that a value has by a rule. Those of a tagged value depend on its tag, which comes
first. -/
def shape? : Rule → Json → Option Shape
  | automation, _ => some [("id", leaf), ("name", leaf), ("trigger", optional trigger),
      ("condition", optional expr), ("conditions", list guard), ("actions", list action)]
  | guard, _ => some [("expr", optional expr)]
  | action, _ => some [("call", optional expr)]
  | constant, _ => some [("kind", leaf), ("value", leaf)]
  | trigger, j => (j.variant? Trigger.Tag.known).map fun v => ("type", leaf) :: v.shape
  | expr, j => (j.variant? Expr.Tag.known).map fun v => ("type", leaf) :: v.shape
  | _, _ => none

/-- Whether a value is read as a whole before it is looked at, because of its tag or of one further
out. -/
def isHeld : Rule → Bool
  | automation | guard | action => false
  | optional r | list r => r.isHeld
  | _ => true

/-- One change of the layout of a value. -/
inductive Rearranges : Rule → Json → Json → Prop
  | permuted {r : Rule} {s : Shape} {ms ns : List (String × Json)}
      (hs : r.shape? (.object ms) = some s) (h : ms.Perm ns) :
      Rearranges r (.object ms) (.object ns)
  /-- A member is put in that is none of the fields. Where it is read before it is passed over, it
  must be a value that can be read. -/
  | extended {r : Rule} {s : Shape} {ms : List (String × Json)} {key : String} {j : Json}
      (hs : r.shape? (.object ms) = some s) (hkey : key ∉ s.names)
      (hj : r.isHeld → j.isReadable) :
      Rearranges r (.object ms) (.object ((key, j) :: ms))
  /-- The layout changes in a member that is a field. -/
  | member {r t : Rule} {s : Shape} {before after : List (String × Json)} {key : String}
      {j k : Json} (hs : r.shape? (.object (before ++ (key, j) :: after)) = some s)
      (ht : (key, t) ∈ s) (h : Rearranges t j k) :
      Rearranges r (.object (before ++ (key, j) :: after)) (.object (before ++ (key, k) :: after))
  /-- The layout changes in an element that stands for a field. -/
  | element {r t : Rule} {s : Shape} {before after : List Json} {key : String} {j k : Json}
      (hs : r.shape? (.array (before ++ j :: after)) = some s)
      (ht : s[before.length]? = some (key, t)) (h : Rearranges t j k) :
      Rearranges r (.array (before ++ j :: after)) (.array (before ++ k :: after))
  | item {r : Rule} {before after : List Json} {j k : Json} (h : Rearranges r j k) :
      Rearranges (list r) (.array (before ++ j :: after)) (.array (before ++ k :: after))
  | present {r : Rule} {j k : Json} (h : Rearranges r j k) : Rearranges (optional r) j k

end Rule

/-! ## Readers by variant -/

/-- Reads the tag of a readable value, and then the fields of its variant. -/
def Json.readTagged {ν α : Type} (known : List (String × ν)) (shape : ν → Shape) (stage : Stage)
    (read : {j : Json} → Record (Part j) → ν → Except Fault α) (j : Json) : Except Fault α :=
  if j.isReadable then
    j.taggedRecord known (fun v => (shape v).names) stage >>= fun x => read x.2 x.1
  else .error .malformed

namespace Expr

/-- Reads the fields of a variant. -/
def Tag.read {j : Json} (r : Record (Part j)) : Tag → Except Fault Expr
  | constant => Expr.constant <$> r.required "value" (Constant.ofJson ·.1)
  | device => Expr.device <$> r.required "handle" (Handle.ofJson ·.1)
  | event => Expr.event <$> r.required "name" (·.1.asString)
  | call => do
    let f ← r.required "function" (Builtin.ofJson .held ·.1)
    Expr.call f <$> r.optional "args" [] fun args => do
      (← args.1.elements).mapM (Json.nullable (ofJson .held ·.1))
  | binary => do
    let op ← r.required "op" (Operator.ofJson .held ·.1)
    let left ← r.optional "left" none (Json.nullable (ofJson .held ·.1))
    let right ← r.optional "right" none (Json.nullable (ofJson .held ·.1))
    return Expr.binary op left right
  | negation => Expr.negation <$> r.optional "operand" none (Json.nullable (ofJson .held ·.1))

theorem ofJson_eq (stage : Stage) (j : Json) :
    ofJson stage j = j.readTagged Tag.known Tag.shape stage Tag.read := by
  rw [ofJson, Json.readTagged]
  cases j.isReadable with
  | false => rfl
  | true =>
    simp only [not_true, if_false, if_true, Json.taggedRecord, bind_assoc]
    apply bind_congr
    rintro ⟨t, b⟩
    apply bind_congr
    intro v
    cases v <;> rfl

end Expr

namespace Trigger

def Tag.read {j : Json} (r : Record (Part j)) : Tag → Except Fault Trigger
  | event => Trigger.event <$> r.required "event" (·.1.asString)
  | deviceEvent => do
    return Trigger.deviceEvent (← r.required "event" (·.1.asString))
      (← r.required "device" (Handle.ofJson ·.1))
  | time => Trigger.time <$> r.required "time" (·.1.asString)

theorem ofJson_eq (j : Json) :
    ofJson j = j.readTagged Tag.known Tag.shape .streamed Tag.read := by
  rw [ofJson, Json.readTagged]
  cases j.isReadable with
  | false => rfl
  | true =>
    simp only [not_true, if_false, if_true, Json.taggedRecord, bind_assoc]
    apply bind_congr
    rintro ⟨t, b⟩
    apply bind_congr
    intro v
    cases v <;> rfl

end Trigger

/-! ## Values that are read alike -/

namespace Rule

/-- Whatever is read from the first value is also read from the second one. -/
def Agrees : Rule → Json → Json → Prop
  | automation, j, k => Yields Eq (Automation.ofJson j) (Automation.ofJson k)
  | trigger, j, k => Yields Eq (Trigger.ofJson j) (Trigger.ofJson k)
  | guard, j, k => Yields Eq (Guard.ofJson j) (Guard.ofJson k)
  | action, j, k => Yields Eq (Action.ofJson j) (Action.ofJson k)
  | expr, j, k => ∀ stage, Yields Eq (Expr.ofJson stage j) (Expr.ofJson stage k)
  | constant, j, k => Yields Eq (Constant.ofJson j) (Constant.ofJson k)
  | leaf, j, k => j = k
  | optional r, j, k => j.isNull = k.isNull ∧ r.Agrees j k
  | list r, j, k => Yields (List.Forall₂ fun p q => r.Agrees p.1 q.1) j.elements k.elements

theorem Agrees.refl (r : Rule) (j : Json) : r.Agrees j j := by
  induction r generalizing j with
  | leaf => rfl
  | expr => exact fun stage => .refl _
  | optional r ih => exact ⟨rfl, ih j⟩
  | list r ih =>
    intro ps hps
    exact ⟨ps, hps, List.forall₂_same.2 fun p _ => ih p.1⟩
  | _ => exact Yields.refl _

/-- Values that agree in each field of a shape. -/
abbrev AlikeIn (s : Shape) : Json → Json → Prop :=
  Alike s.names fun f => (s.rule f).Agrees

/-! ### Fields -/

section
variable {j k : Json} {fields : List String} {T : String → Json → Json → Prop} {f : String}
  {t : Rule} {α : Type} {r : Record (Part j)} {s : Record (Part k)}

theorem yields_unlessNull {x y : Json} {read : Json → Except Fault α} (hnull : x.isNull = y.isNull)
    (h : Yields Eq (read x) (read y)) :
    Yields Eq (Json.unlessNull read x) (Json.unlessNull read y) := by
  unfold Json.unlessNull
  rw [hnull]
  split
  · exact .ok rfl
  · apply h.map
    rintro a _ rfl
    rfl

theorem yields_leaf (hT : T f = leaf.Agrees) (read : Json → Except Fault α) (p : Part j)
    (q : Part k) (h : T f p.1 q.1) : Yields Eq (read p.1) (read q.1) := by
  rw [hT] at h
  have he : p.1 = q.1 := h
  rw [he]
  exact .refl _

variable (h : r.Matches fields (fun f p q => T f p.1 q.1) s) (hf : f ∈ fields)
include h hf

theorem required_leaf (hT : T f = leaf.Agrees) (read : Json → Except Fault α) :
    Yields Eq (r.required f (read ·.1)) (s.required f (read ·.1)) :=
  h.required hf (yields_leaf hT read)

theorem optional_leaf (hT : T f = leaf.Agrees) (d : α) (read : Json → Except Fault α) :
    Yields Eq (r.optional f d (read ·.1)) (s.optional f d (read ·.1)) :=
  h.optional hf rfl (yields_leaf hT read)

variable (read : Json → Except Fault α) (hread : ∀ x y, t.Agrees x y → Yields Eq (read x) (read y))
include hread

theorem required_rule (hT : T f = t.Agrees) :
    Yields Eq (r.required f (read ·.1)) (s.required f (read ·.1)) := by
  apply h.required hf
  intro p q hpq
  rw [hT] at hpq
  exact hread p.1 q.1 hpq

theorem optional_nullable (hT : T f = (optional t).Agrees) :
    Yields Eq (r.optional f none (Json.nullable (read ·.1)))
      (s.optional f none (Json.nullable (read ·.1))) := by
  apply h.optional hf rfl
  intro p q hpq
  rw [hT] at hpq
  exact yields_unlessNull hpq.1 (hread p.1 q.1 hpq.2)

theorem optional_list (hT : T f = (list t).Agrees) :
    Yields Eq (r.optional f [] fun v => do (← v.1.elements).mapM (read ·.1))
      (s.optional f [] fun v => do (← v.1.elements).mapM (read ·.1)) := by
  apply h.optional hf rfl
  intro p q hpq
  rw [hT] at hpq
  exact Json.yields_elements read hread hpq

end

/-! ### Records -/

section
variable {j k : Json}

theorem agrees_constant (h : AlikeIn [("kind", leaf), ("value", leaf)] j k) :
    constant.Agrees j k := by
  apply (h.record .held).bind
  intro r s hr
  apply (required_leaf hr (by decide) rfl _).bind
  rintro kind _ rfl
  rw [hr.isNamed]
  split
  · exact optional_leaf hr (by decide) rfl _ _
  · exact required_leaf hr (by decide) rfl _

/-- A guard and an action each hold a single expression. -/
theorem yields_single {α : Type} (field : String) (build : Option Expr → α)
    (h : AlikeIn [(field, optional expr)] j k) :
    Yields Eq (do return build (← (← j.record [field] .streamed).optional field none
        (Json.nullable (Expr.ofJson .streamed ·.1))))
      (do return build (← (← k.record [field] .streamed).optional field none
        (Json.nullable (Expr.ofJson .streamed ·.1)))) := by
  apply (h.record .streamed).bind
  intro r s hr
  have hrule : Shape.rule [(field, optional expr)] field = optional expr := by
    simp [Shape.rule]
  apply (optional_nullable hr List.mem_cons_self (t := expr) _ (fun _ _ h => h .streamed)
    (congrArg Agrees hrule)).bind
  rintro e _ rfl
  exact .refl _

theorem agrees_automation (h : AlikeIn [("id", leaf), ("name", leaf), ("trigger", optional trigger),
      ("condition", optional expr), ("conditions", list guard), ("actions", list action)] j k) :
    automation.Agrees j k := by
  apply (h.record .streamed).bind
  intro r s hr
  apply (optional_leaf hr (by decide) rfl none (Json.unlessNull Json.asString)).bind
  rintro id _ rfl
  apply (required_leaf hr (by decide) rfl Json.asString).bind
  rintro name _ rfl
  apply (optional_nullable hr (by decide) (t := trigger) _ (fun _ _ h => h) rfl).bind
  rintro trigger _ rfl
  apply (optional_nullable hr (by decide) (t := expr) _ (fun _ _ h => h .streamed) rfl).bind
  rintro condition _ rfl
  apply (optional_list hr (by decide) (t := guard) _ (fun _ _ h => h) rfl).bind
  rintro guards _ rfl
  apply (optional_list hr (by decide) (t := action) _ (fun _ _ h => h) rfl).bind
  rintro actions _ rfl
  exact .refl _

/-- Tagged values are read alike if the fields of each variant are. -/
theorem yields_readTagged {ν α : Type} {known : List (String × ν)} {shape : ν → Shape}
    {stage : Stage} {read : {j : Json} → Record (Part j) → ν → Except Fault α}
    (hfresh : ∀ v, "type" ∉ (shape v).names)
    (h : ∀ v, j.variant? known = some v → AlikeIn (("type", leaf) :: shape v) j k)
    (hread : j.isReadable → k.isReadable)
    (hfields : ∀ v (r : Record (Part j)) (s : Record (Part k)), r.Matches (shape v).names
      (fun f p q => (Shape.rule (("type", leaf) :: shape v) f).Agrees p.1 q.1) s →
        Yields Eq (read r v) (read s v)) :
    Yields Eq (j.readTagged known shape stage read) (k.readTagged known shape stage read) := by
  unfold Json.readTagged
  split
  case isFalse => exact .error
  case isTrue hj =>
    rw [if_pos (hread hj)]
    have hrecords := Json.yields_taggedRecord
      (T := fun v f => (Shape.rule (("type", leaf) :: shape v) f).Agrees) hfresh
      (fun _ _ _ h => h) h stage
    apply hrecords.bind
    rintro ⟨v, r⟩ ⟨_, s⟩ ⟨rfl, hr⟩
    exact hfields v r s hr

theorem agrees_trigger (h : ∀ s, trigger.shape? j = some s → AlikeIn s j k)
    (hread : j.isReadable → k.isReadable) : trigger.Agrees j k := by
  change Yields Eq _ _
  rw [Trigger.ofJson_eq, Trigger.ofJson_eq]
  apply yields_readTagged (by rintro (_ | _ | _) <;> decide)
    (fun v hv => h _ (by rw [shape?, hv]; rfl)) hread
  intro v r s hr
  cases v with
  | event =>
    apply (required_leaf hr (by decide) rfl Json.asString).map
    rintro e _ rfl
    rfl
  | deviceEvent =>
    apply (required_leaf hr (by decide) rfl Json.asString).bind
    rintro e _ rfl
    apply (required_leaf hr (by decide) rfl Handle.ofJson).bind
    rintro d _ rfl
    exact .refl _
  | time =>
    apply (required_leaf hr (by decide) rfl Json.asString).map
    rintro t _ rfl
    rfl

theorem agrees_expr (h : ∀ s, expr.shape? j = some s → AlikeIn s j k)
    (hread : j.isReadable → k.isReadable) : expr.Agrees j k := by
  intro stage
  rw [Expr.ofJson_eq, Expr.ofJson_eq]
  apply yields_readTagged (by rintro (_ | _ | _) <;> decide)
    (fun v hv => h _ (by rw [shape?, hv]; rfl)) hread
  intro v r s hr
  cases v with
  | constant =>
    apply (required_rule hr (by decide) (t := constant) _ (fun _ _ h => h) rfl).map
    rintro c _ rfl
    rfl
  | device =>
    apply (required_leaf hr (by decide) rfl Handle.ofJson).map
    rintro d _ rfl
    rfl
  | event =>
    apply (required_leaf hr (by decide) rfl Json.asString).map
    rintro name _ rfl
    rfl
  | call =>
    apply (required_leaf hr (by decide) rfl (Builtin.ofJson .held)).bind
    rintro f _ rfl
    apply (optional_list hr (by decide) (t := optional expr) (Json.unlessNull (Expr.ofJson .held))
      (fun _ _ h => yields_unlessNull h.1 (h.2 .held)) rfl).map
    rintro arguments _ rfl
    rfl
  | binary =>
    apply (required_leaf hr (by decide) rfl (Operator.ofJson .held)).bind
    rintro op _ rfl
    apply (optional_nullable hr (by decide) (t := expr) _ (fun _ _ h => h .held) rfl).bind
    rintro left _ rfl
    apply (optional_nullable hr (by decide) (t := expr) _ (fun _ _ h => h .held) rfl).bind
    rintro right _ rfl
    exact .refl _
  | negation =>
    apply (optional_nullable hr (by decide) (t := expr) _ (fun _ _ h => h .held) rfl).map
    rintro operand _ rfl
    rfl

/-- Whether the values of a rule have fields. -/
def isRecord : Rule → Bool
  | leaf | optional _ | list _ => false
  | _ => true

theorem agrees_of_alikeIn {r : Rule} (hr : r.isRecord)
    (h : ∀ s, r.shape? j = some s → AlikeIn s j k)
    (hread : r.isHeld → j.isReadable → k.isReadable) : r.Agrees j k := by
  cases r with
  | automation => exact agrees_automation (h _ rfl)
  | trigger => exact agrees_trigger h (hread rfl)
  | guard => exact yields_single "expr" Guard.mk (h _ rfl)
  | action => exact yields_single "call" Action.mk (h _ rfl)
  | expr => exact agrees_expr h (hread rfl)
  | constant => exact agrees_constant (h _ rfl)
  | leaf | optional | list => cases hr

end

/-! ## Values that are laid out anew -/

theorem shape?_cases {r : Rule} {j : Json} {s : Shape} (h : r.shape? j = some s) :
    r.isRecord ∧ s.names.Nodup ∧ (r.isHeld → ∀ m ∈ s, m.2.isHeld) := by
  cases r with
  | automation | guard | action | constant =>
    obtain rfl := Option.some.inj h
    decide
  | trigger =>
    obtain ⟨v, -, rfl⟩ := Option.map_eq_some_iff.1 h
    cases v <;> decide
  | expr =>
    obtain ⟨v, -, rfl⟩ := Option.map_eq_some_iff.1 h
    cases v <;> decide
  | leaf | optional | list => cases h

/-- The fields of a value depend on its tag, if that is the first of them, and on nothing else. -/
theorem shape?_congr {r : Rule} {j k : Json} {s : Shape} (h : r.shape? j = some s)
    (htag : s.head? = some ("type", leaf) → j.part? ["type"] "type" = k.part? ["type"] "type") :
    r.shape? k = some s := by
  cases r with
  | automation | guard | action | constant => exact h
  | trigger | expr =>
    obtain ⟨v, hv, rfl⟩ := Option.map_eq_some_iff.1 h
    rw [shape?, Json.variant?, ← htag rfl, ← Json.variant?, hv]
    rfl
  | leaf | optional | list => cases h

theorem rule_of_mem {s : Shape} {key : String} {t : Rule} (hs : s.names.Nodup)
    (h : (key, t) ∈ s) : s.rule key = t := by
  obtain ⟨before, after, rfl⟩ := List.append_of_mem h
  have hbefore : ∀ m ∈ before, (key != m.1) = true := by
    rintro m hm
    simp only [Shape.names, List.map_append, List.nodup_append] at hs
    exact bne_iff_ne.2 (hs.2.2 m.1 (List.mem_map_of_mem hm) key (by simp)).symm
  rw [Shape.rule, List.lookup_eq_some_iff.2 ⟨before, after, rfl, hbefore⟩]
  rfl

namespace Rearranges

theorem not_leaf {j k : Json} : ¬ leaf.Rearranges j k := by
  rintro (⟨hs, -⟩ | ⟨hs, -, -⟩ | ⟨hs, -, -⟩ | ⟨hs, -, -⟩) <;> cases hs

/-- Nothing changes in a tag. -/
theorem ne_type {r t : Rule} {s : Shape} {key : String} {i j k : Json} (hs : r.shape? i = some s)
    (ht : (key, t) ∈ s) (h : t.Rearranges j k) (htype : ("type", leaf) ∈ s) : key ≠ "type" := by
  rintro rfl
  obtain ⟨-, hnodup, -⟩ := shape?_cases hs
  obtain rfl : leaf = t := (rule_of_mem hnodup htype).symm.trans (rule_of_mem hnodup ht)
  exact not_leaf h

theorem isReadable_iff {r : Rule} {j k : Json} (h : r.Rearranges j k) (hr : r.isHeld) :
    j.isReadable ↔ k.isReadable := by
  induction h with
  | permuted _ h =>
    simp only [Json.isReadable, Json.areReadableMembers_iff]
    exact forall_congr' fun m => by rw [h.mem_iff]
  | extended _ _ hread => simp [Json.isReadable, Json.areReadableMembers, hread hr]
  | member hs ht _ ih =>
    have hheld := (shape?_cases hs).2.2 hr _ ht
    simp only [Json.isReadable, Json.areReadableMembers_iff, List.forall_mem_append,
      List.forall_mem_cons, ih hheld]
  | element hs ht _ ih =>
    have hheld := (shape?_cases hs).2.2 hr _ (List.mem_of_getElem? ht)
    simp only [Json.isReadable, Json.areReadable_iff, List.forall_mem_append,
      List.forall_mem_cons, ih hheld]
  | item _ ih =>
    simp only [Json.isReadable, Json.areReadable_iff, List.forall_mem_append,
      List.forall_mem_cons, ih hr]
  | present _ ih => exact ih hr

theorem isNull_eq {r : Rule} {j k : Json} (h : r.Rearranges j k) : j.isNull = k.isNull := by
  induction h with
  | present _ ih => exact ih
  | _ => rfl

end Rearranges

theorem agrees_item {r : Rule} {j k : Json} (h : r.Agrees j k) (before after : List Json) :
    (list r).Agrees (.array (before ++ j :: after)) (.array (before ++ k :: after)) := by
  have hsame (xs : List Json) : List.Forall₂ r.Agrees xs xs :=
    List.forall₂_same.2 fun x _ => Agrees.refl r x
  exact Json.yields_array (List.rel_append (hsame before) (.cons h (hsame after)))

theorem agrees_of_shape {r : Rule} {s : Shape} {j k : Json} (hj : r.shape? j = some s)
    (hk : r.shape? k = some s) (hjk : AlikeIn s j k) (hkj : AlikeIn s k j)
    (hread : r.isHeld → (j.isReadable ↔ k.isReadable)) : r.Agrees j k ∧ r.Agrees k j := by
  have hr := (shape?_cases hj).1
  constructor
  · refine agrees_of_alikeIn hr ?_ fun h => (hread h).1
    rintro s' hs'
    obtain rfl := Option.some.inj (hj.symm.trans hs')
    exact hjk
  · refine agrees_of_alikeIn hr ?_ fun h => (hread h).2
    rintro s' hs'
    obtain rfl := Option.some.inj (hk.symm.trans hs')
    exact hkj

/-- One change of the layout keeps what is read, and so does taking it back. -/
theorem Rearranges.agrees {r : Rule} {j k : Json} (h : r.Rearranges j k) :
    r.Agrees j k ∧ r.Agrees k j := by
  have hread := h.isReadable_iff
  have hsame {s : Shape} (f : String) (j : Json) : (s.rule f).Agrees j j := Agrees.refl _ j
  induction h with
  | permuted hs h =>
    have hr := (shape?_cases hs).1
    constructor
    · exact agrees_of_alikeIn hr (fun _ _ => .objects (.permuted hsame h)) fun h => (hread h).1
    · exact agrees_of_alikeIn hr (fun _ _ => .objects (.permuted hsame h.symm))
        fun h => (hread h).2
  | @extended r s ms key j hs hkey _ =>
    refine agrees_of_shape hs (shape?_congr hs ?_) (.objects (.extended hsame ms hkey j))
      (.objects (.reduced hsame ms hkey j)) hread
    intro htype
    have hmem : "type" ∈ s.names := List.mem_map_of_mem (List.mem_of_mem_head? htype)
    exact (Body.Matches.lookup_cons_of_not_mem hmem hkey j).symm
  | @member r t s before after key j k hs ht h ih =>
    have hrule := rule_of_mem (shape?_cases hs).2.1 ht
    obtain ⟨hjk, hkj⟩ := ih h.isReadable_iff
    rw [← hrule] at hjk hkj
    refine agrees_of_shape hs (shape?_congr hs ?_) (.objects (.member hsame hjk))
      (.objects (.member hsame hkj)) hread
    intro htype
    simp [Json.part?, List.lookup_append, List.lookup_cons,
      beq_false_of_ne (ne_type hs ht h (List.mem_of_mem_head? htype)).symm]
  | @element r t s before after key j k hs ht h ih =>
    have hmem := List.mem_of_getElem? ht
    have hrule := rule_of_mem (shape?_cases hs).2.1 hmem
    have hname : s.names[before.length]? = some key := by
      rw [Shape.names, List.getElem?_map, ht]
      rfl
    obtain ⟨hjk, hkj⟩ := ih h.isReadable_iff
    rw [← hrule] at hjk hkj
    refine agrees_of_shape hs (shape?_congr hs ?_) (.arrays (.element hsame hname hjk))
      (.arrays (.element hsame hname hkj)) hread
    intro htype
    cases before with
    | nil =>
      -- The element would be the tag, and in that nothing changes.
      rw [List.head?_eq_getElem?] at htype
      obtain ⟨rfl, rfl⟩ := Option.some.inj (htype.symm.trans ht)
      exact absurd h not_leaf
    | cons _ _ => rfl
  | item h ih =>
    obtain ⟨hjk, hkj⟩ := ih h.isReadable_iff
    exact ⟨agrees_item hjk _ _, agrees_item hkj _ _⟩
  | present h ih =>
    obtain ⟨hjk, hkj⟩ := ih hread
    exact ⟨⟨h.isNull_eq, hjk⟩, h.isNull_eq.symm, hkj⟩

end Rule

namespace Program

/-- However the records of a written program are laid out, the same program is read, or none. -/
theorem ofJson_rearranged {j k : Json} {p : Program}
    (h : Relation.ReflTransGen (Rule.list .automation).Rearranges j k) :
    ofJson k = .ok p ↔ ofJson j = .ok p := by
  have hread {j k : Json} (h : (Rule.list .automation).Agrees j k) (hj : ofJson j = .ok p) :
      ofJson k = .ok p := by
    obtain ⟨_, hk, rfl⟩ := Json.yields_elements Automation.ofJson (fun _ _ h => h) h p hj
    exact hk
  induction h with
  | refl => exact .rfl
  | tail _ hstep ih => exact Iff.trans ⟨hread hstep.agrees.2, hread hstep.agrees.1⟩ ih

/-- A constant and an automation with their members swapped, a field of another variant, and a
member that cannot be read where nobody reads it. -/
theorem ofJson_rearranged_swapped :
    let p : Program := [{ name := "Hall", condition := some (.negation (some (.boolean true))) }]
    let constant (ms : List (String × Json)) : Json :=
      .object [("type", .string "constant"), ("value", .object ms)]
    let negation (c : Json) : List (String × Json) := [("type", .string "not"), ("operand", c)]
    let kind : String × Json := ("kind", .string "boolean")
    let value : String × Json := ("value", .boolean true)
    let name : String × Json := ("name", .string "Hall")
    let j : Json := .array [.object
      [name, ("condition", .object (negation (constant [kind, value])))]]
    let k : Json := .array [.object [("draft", .unreadable),
      ("condition", .object (("args", .null) :: negation (constant [value, kind]))), name]]
    Relation.ReflTransGen (Rule.list .automation).Rearranges j k ∧ ofJson j = .ok p
      ∧ ofJson k = .ok p := by
  intro p constant negation kind value name j k
  have hconstant : Rule.expr.Rearranges (constant [kind, value]) (constant [value, kind]) :=
    @Rule.Rearranges.member .expr .constant _ [("type", .string "constant")] [] "value" _ _ rfl
      (by simp [Expr.Tag.shape]) (.permuted rfl (.swap _ _ _))
  have hnegation {c d : Json} (h : Rule.expr.Rearranges c d) :
      Rule.expr.Rearranges (.object (negation c)) (.object (negation d)) :=
    @Rule.Rearranges.member .expr (.optional .expr) _ [("type", .string "not")] [] "operand" _ _ rfl
      (by simp [Expr.Tag.shape]) (.present h)
  have hcondition {c d : Json} (h : Rule.expr.Rearranges c d) :
      Rule.automation.Rearranges (.object [name, ("condition", c)])
        (.object [name, ("condition", d)]) :=
    @Rule.Rearranges.member .automation (.optional .expr) _ [name] [] "condition" _ _ rfl
      (by simp) (.present h)
  have hitem {c d : Json} (h : Rule.automation.Rearranges c d) :
      (Rule.list .automation).Rearranges (.array [c]) (.array [d]) :=
    @Rule.Rearranges.item .automation [] [] _ _ h
  have h : Relation.ReflTransGen (Rule.list .automation).Rearranges j k := by
    refine .head (hitem (hcondition (hnegation hconstant))) ?_
    refine .head (hitem (hcondition
      (@Rule.Rearranges.extended .expr _ _ "args" .null rfl (by decide) fun _ => rfl))) ?_
    refine .head (hitem (.permuted rfl (.swap _ _ _))) ?_
    exact .single (hitem (.extended rfl (by decide) fun h => absurd h (by decide)))
  have hoperand : Expr.ofOption .held (constant [kind, value]) = .ok (some (.boolean true)) := by
    have hread := Expr.ofJson_constant .held (j := .object [kind, value]) rfl
    exact congrArg (some <$> ·) hread
  have hexpr : Expr.ofOption .streamed (.object (negation (constant [kind, value])))
      = .ok (some (.negation (some (.boolean true)))) := by
    have hread := Expr.ofJson_negation .streamed (x := constant [kind, value]) rfl
    rw [hoperand] at hread
    exact congrArg (some <$> ·) hread
  have hautomation (c : Json) : Automation.ofJson (.object [name, ("condition", c)]) = do
      return { name := "Hall", condition := ← Expr.ofOption .streamed c } := rfl
  have hj : ofJson j = .ok p := by
    refine (Json.elements_mapM _ Automation.ofJson).trans ?_
    rw [List.mapM_cons, hautomation, hexpr]
    rfl
  exact ⟨h, hj, (ofJson_rearranged h).2 hj⟩

end Program
end HomeScript
