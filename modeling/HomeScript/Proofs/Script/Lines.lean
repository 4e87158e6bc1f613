import HomeScript.Proofs.Script.Term
import HomeScript.Script.Program

/-! # Lines of programs

No text of an automation but the names of events can bring a line feed into its code. Where they do
not, the text of a program splits back into its lines, and these into its automations.
-/

namespace HomeScript

/-! ## Expressions stay on their line -/

def OnOneLine (s : String) : Prop :=
  '\n' ∉ s.toList

instance (s : String) : Decidable (OnOneLine s) :=
  inferInstanceAs (Decidable (¬ _))

theorem OnOneLine.append {s t : String} (hs : OnOneLine s) (ht : OnOneLine t) :
    OnOneLine (s ++ t) := by
  rw [OnOneLine, String.toList_append, List.mem_append]
  rintro (h | h)
  · exact hs h
  · exact ht h

theorem OnOneLine.ne_lineFeed {s : String} (h : OnOneLine s) :
    ∀ c ∈ s.toList, (c != '\n') = true := by
  intro c hc
  rw [bne_iff_ne]
  rintro rfl
  exact h hc

namespace Expr

/-- The events named by some expressions are names on one line. -/
def NamesOnOneLine (es : List Expr) : Prop :=
  ∀ name, event name ∈ es → OnOneLine name

theorem NamesOnOneLine.mono {es fs : List Expr} (h : NamesOnOneLine es) (hs : fs ⊆ es) :
    NamesOnOneLine fs :=
  fun name hn => h name (hs hn)

end Expr

theorem lineFeed_not_mem_number (x : Double) : '\n' ∉ (Script.number x).toList := by
  intro h
  have hc := (isNumeral_number x).all_numeral _ h
  exact absurd hc (by decide)

theorem Operator.lineFeed_not_mem_symbol (op : Operator) : '\n' ∉ op.symbol.toList :=
  (by decide : ∀ op ∈ all, '\n' ∉ op.symbol.toList) op op.mem_all

theorem Builtin.lineFeed_not_mem_name (f : Builtin) : '\n' ∉ f.name.toList :=
  (by decide : ∀ f ∈ all, '\n' ∉ f.name.toList) f f.mem_all

namespace Term

theorem mem_parenthesizedIf {p : Bool} {cs : List Char} :
    '\n' ∈ parenthesizedIf p cs ↔ '\n' ∈ cs := by
  cases p <;> simp [parenthesizedIf]

theorem lineFeed_not_mem_binary {op : Operator} {left right : Term} (hl : '\n' ∉ left.code)
    (hr : '\n' ∉ right.code) : '\n' ∉ (binary op left right).code := by
  have hs := op.lineFeed_not_mem_symbol
  cases h : op.binding with
  | some b => simp [code_infixed h, within, mem_parenthesizedIf, hl, hr, hs]
  | none => simp [code_logical h, hl, hr, hs]

theorem lineFeed_not_mem_call {f : Builtin} {ts : List Term} (h : ∀ t ∈ ts, '\n' ∉ t.code) :
    '\n' ∉ (call f ts).code := by
  suffices '\n' ∉ [',', ' '].intercalate (codes ts) by
    simpa [code, f.lineFeed_not_mem_name] using this
  cases ts with
  | nil => simp [codes]
  | cons t ts =>
    simp only [List.forall_mem_cons] at h
    simpa [intercalate_codes, argumentCode, h.1] using h.2

end Term

namespace Expr

theorem lineFeed_not_mem_filler (slot : Slot) : '\n' ∉ slot.filler.code := by
  cases slot <;> decide

mutual

theorem lineFeed_not_mem_filled : (e : Expr) → NamesOnOneLine e.nodes → '\n' ∉ e.filled.code
  | constant (.string s), _ => Quoting.lineFeed_not_mem_quote s
  | constant (.number x), _ => lineFeed_not_mem_number x
  | constant (.boolean b), _ => by cases b <;> decide
  | constant .null, _ => by decide
  | device h, _ => Quoting.lineFeed_not_mem_quote h.text
  | event name, h => h name (self_mem_nodes _)
  | call f arguments, h => by
    apply Term.lineFeed_not_mem_call
    exact lineFeed_not_mem_filledArguments f.slots arguments (h.mono (List.subset_cons_self _ _))
  | binary op left right, h => by
    apply Term.lineFeed_not_mem_binary
    · exact lineFeed_not_mem_filledSlot _ left (h.mono (by simp [nodes]))
    · exact lineFeed_not_mem_filledSlot _ right (h.mono (by simp [nodes]))
  | negation operand, h => by
    have hoperand := lineFeed_not_mem_filledSlot .boolean operand
      (h.mono (List.subset_cons_self _ _))
    simpa [filled, Term.code] using hoperand

theorem lineFeed_not_mem_filledSlot (slot : Slot) :
    (a : Option Expr) → NamesOnOneLine (optionNodes a) → '\n' ∉ (filledSlot slot a).code
  | some e, h => lineFeed_not_mem_filled e h
  | none, _ => lineFeed_not_mem_filler slot

theorem lineFeed_not_mem_filledArguments : (slots : List Slot) →
    (arguments : List (Option Expr)) → NamesOnOneLine (argumentNodes arguments) →
    ∀ t ∈ filledArguments slots arguments, '\n' ∉ t.code
  | slots, [], _ => by
    rw [filledArguments, List.forall_mem_map]
    intro slot _
    exact lineFeed_not_mem_filler slot
  | [], a :: rest, h => by
    rw [filledArguments, List.forall_mem_cons]
    constructor
    · exact lineFeed_not_mem_filledSlot .any a (h.mono (by simp [argumentNodes]))
    · exact lineFeed_not_mem_filledArguments [] rest (h.mono (by simp [argumentNodes]))
  | slot :: slots, a :: rest, h => by
    rw [filledArguments, List.forall_mem_cons]
    constructor
    · exact lineFeed_not_mem_filledSlot slot a (h.mono (by simp [argumentNodes]))
    · exact lineFeed_not_mem_filledArguments slots rest (h.mono (by simp [argumentNodes]))

end

theorem onOneLine_slotFragment (slot : Slot) {a : Option Expr}
    (h : NamesOnOneLine (optionNodes a)) : OnOneLine (slotFragment .escaped slot a).code := by
  rw [← fragment_filledSlot, OnOneLine, Term.toList_code_fragment]
  exact lineFeed_not_mem_filledSlot slot a h

theorem onOneLine_fragment {e : Expr} (h : NamesOnOneLine e.nodes) :
    OnOneLine (e.fragment .escaped).code :=
  onOneLine_slotFragment .any (a := some e) h

end Expr

/-! ## Automations -/

namespace Automation

/-- The expressions that an automation is written with. -/
def exprs (a : Automation) : List Expr :=
  a.condition.toList ++ a.guards.filterMap Guard.expr ++ a.actions.filterMap Action.call

/-- No event is named over several lines, neither by the trigger nor by an expression. -/
structure NamesOnOneLine (a : Automation) : Prop where
  event : ∀ e, a.trigger = some (.event e) → OnOneLine e
  deviceEvent : ∀ e h, a.trigger = some (.deviceEvent e h) → OnOneLine e
  exprs : Expr.NamesOnOneLine (a.exprs.flatMap Expr.nodes)

theorem onOneLine_eventToken {e : String} (h : OnOneLine e) : OnOneLine (eventToken e) := by
  unfold eventToken
  split
  · decide
  · exact h

theorem NamesOnOneLine.triggerToken {a : Automation} (h : a.NamesOnOneLine) :
    OnOneLine a.triggerToken := by
  unfold Automation.triggerToken
  cases ht : a.trigger with
  | none => exact (by decide : OnOneLine noTrigger)
  | some t =>
    cases t with
    | event e => exact onOneLine_eventToken (h.event e ht)
    | deviceEvent e d => exact onOneLine_eventToken (h.deviceEvent e d ht)
    | time t => exact (by decide : OnOneLine CatalogEvent.clockTick.name)

theorem NamesOnOneLine.header {a : Automation} (h : a.NamesOnOneLine) :
    OnOneLine (a.header .escaped) := by
  have hn : OnOneLine (Quoting.escaped.quote a.name) := Quoting.lineFeed_not_mem_quote a.name
  exact ((((OnOneLine.append (by decide) hn).append (by decide)).append h.triggerToken).append
    (by decide))

theorem onOneLine_conditionLine {c : Option Expr}
    (h : Expr.NamesOnOneLine (Expr.optionNodes c)) : OnOneLine (conditionLine .escaped c) :=
  OnOneLine.append (by decide) (Expr.onOneLine_slotFragment .boolean h)

theorem onOneLine_guardLine {t : Trigger} {l : String} (h : t.guardLine .escaped = some l) :
    OnOneLine l := by
  cases t with
  | event e => simp [Trigger.guardLine] at h
  | deviceEvent e d =>
    have hnames : Expr.NamesOnOneLine (Trigger.isFromDevice d).nodes := by
      simp [Trigger.isFromDevice, Expr.string, Expr.nodes, Expr.optionNodes, Expr.argumentNodes,
        Expr.NamesOnOneLine]
    have hcode := Expr.onOneLine_fragment hnames
    obtain rfl := Option.some.inj h
    exact OnOneLine.append (by decide) ((OnOneLine.append (by decide) hcode).append (by decide))
  | time t =>
    have hnames : Expr.NamesOnOneLine (Expr.optionNodes (some (Trigger.isAtTime t))) := by
      simp [Trigger.isAtTime, Expr.string, Expr.nodes, Expr.optionNodes, Expr.argumentNodes,
        Expr.NamesOnOneLine]
    obtain rfl := Option.some.inj h
    exact onOneLine_conditionLine hnames

section
variable {a : Automation} (h : Expr.NamesOnOneLine (a.exprs.flatMap Expr.nodes))
include h

theorem namesOnOneLine_nodes {e : Expr} (he : e ∈ a.exprs) : Expr.NamesOnOneLine e.nodes := by
  refine h.mono ?_
  intro n hn
  exact List.mem_flatMap.2 ⟨e, he, hn⟩

theorem onOneLine_of_mem_guardLines {l : String} (hl : l ∈ a.guardLines .escaped) :
    OnOneLine l := by
  simp only [guardLines, List.mem_append, Option.mem_toList, Option.bind_eq_some_iff,
    Option.map_eq_some_iff, List.mem_map] at hl
  rcases hl with (⟨t, -, ht⟩ | ⟨e, he, rfl⟩) | ⟨g, hg, rfl⟩
  · exact onOneLine_guardLine ht
  · exact onOneLine_conditionLine (namesOnOneLine_nodes h (by simp [exprs, he]))
  · refine onOneLine_conditionLine ?_
    cases he : g.expr with
    | none => simp [Expr.NamesOnOneLine, Expr.optionNodes]
    | some e =>
      refine namesOnOneLine_nodes h ?_
      simp only [exprs, List.mem_append, List.mem_filterMap]
      exact .inl (.inr ⟨g, hg, he⟩)

theorem onOneLine_of_mem_runLines {l : String} (hl : l ∈ a.runLines .escaped) : OnOneLine l := by
  obtain ⟨action, ha, hl⟩ := List.mem_filterMap.1 hl
  obtain ⟨e, he, rfl⟩ := Option.map_eq_some_iff.1 hl
  refine OnOneLine.append (by decide) (Expr.onOneLine_fragment (namesOnOneLine_nodes h ?_))
  simp only [exprs, List.mem_append, List.mem_filterMap]
  exact .inr ⟨action, ha, he⟩

end

theorem NamesOnOneLine.lines {a : Automation} (h : a.NamesOnOneLine) :
    ∀ l ∈ a.lines .escaped, OnOneLine l := by
  simp only [Automation.lines, List.cons_append, List.forall_mem_cons, List.forall_mem_append]
  exact ⟨h.header, ⟨fun _ => onOneLine_of_mem_guardLines h.exprs,
    fun _ => onOneLine_of_mem_runLines h.exprs⟩, by decide⟩

end Automation

/-! ## Text into lines -/

theorem toList_joinLines (ls : List String) :
    (joinLines ls).toList = ls.flatMap fun l => l.toList ++ ['\n'] := by
  simp [joinLines, List.flatMap_map]

theorem joinLines_injective {ls ms : List String} (hl : ∀ l ∈ ls, OnOneLine l)
    (hm : ∀ m ∈ ms, OnOneLine m) (h : joinLines ls = joinLines ms) : ls = ms := by
  replace h := congrArg String.toList h
  rw [toList_joinLines, toList_joinLines] at h
  induction ls generalizing ms with
  | nil => cases ms <;> simp_all
  | cons l ls ih =>
    cases ms with
    | nil => simp at h
    | cons m ms =>
      simp only [List.forall_mem_cons] at hl hm
      simp only [List.flatMap_cons, List.append_assoc, List.singleton_append] at h
      obtain ⟨hlm, hrest⟩ := run_append_inj hl.1.ne_lineFeed hm.1.ne_lineFeed
        (by simp) (by simp) h
      rw [String.toList_inj.1 hlm, ih hl.2 hm.2 (List.cons.inj hrest).2]

theorem joinLines_append (ls ms : List String) :
    joinLines (ls ++ ms) = joinLines ls ++ joinLines ms := by
  simp [joinLines]

theorem joinLines_cons (l : String) (ls : List String) :
    joinLines (l :: ls) = l ++ "\n" ++ joinLines ls := by
  simp [joinLines]

namespace Automation

/-- The two automations are written in the same words. -/
structure SameScript (q : Quoting) (a b : Automation) : Prop where
  name : a.name = b.name
  triggerToken : a.triggerToken = b.triggerToken
  guardLines : a.guardLines q = b.guardLines q
  runLines : a.runLines q = b.runLines q

theorem SameScript.lines {q : Quoting} {a b : Automation} (h : SameScript q a b) :
    a.lines q = b.lines q := by
  simp only [Automation.lines, header, h.name, h.triggerToken, h.guardLines, h.runLines]

theorem header_inj {a b : Automation} (h : a.header .escaped = b.header .escaped) :
    a.name = b.name ∧ a.triggerToken = b.triggerToken := by
  replace h := congrArg String.toList h
  simp only [header, String.toList_append, List.append_assoc] at h
  obtain ⟨hname, hrest⟩ := Quoting.quote_append_inj (List.append_cancel_left h)
  have htoken := List.append_cancel_right (List.append_cancel_left hrest)
  exact ⟨hname, String.toList_inj.1 htoken⟩

def isCondition (l : String) : Bool :=
  l.toList.head? == some 'i'

def isRun (l : String) : Bool :=
  l.toList.head? == some 'r'

theorem isCondition_of_mem_guardLines {a : Automation} {q : Quoting} {l : String}
    (h : l ∈ a.guardLines q) : isCondition l := by
  simp only [guardLines, List.mem_append, Option.mem_toList, Option.bind_eq_some_iff,
    Option.map_eq_some_iff, List.mem_map] at h
  rcases h with (⟨t, -, ht⟩ | ⟨e, -, rfl⟩) | ⟨g, -, rfl⟩
  · cases t with
    | event e => simp [Trigger.guardLine] at ht
    | deviceEvent e d => obtain rfl := Option.some.inj ht; simp [isCondition]
    | time t => obtain rfl := Option.some.inj ht; simp [isCondition, conditionLine]
  all_goals simp [isCondition, conditionLine]

theorem isRun_of_mem_runLines {a : Automation} {q : Quoting} {l : String}
    (h : l ∈ a.runLines q) : isRun l := by
  obtain ⟨action, -, hl⟩ := List.mem_filterMap.1 h
  obtain ⟨e, -, rfl⟩ := Option.map_eq_some_iff.1 hl
  simp [isRun]

theorem head_runLines_append (a : Automation) (ls : List String) :
    ∀ l ∈ (a.runLines .escaped ++ "\x7d" :: "" :: ls).head?, ¬ isCondition l := by
  intro l hl
  cases hr : a.runLines .escaped with
  | nil =>
    simp only [hr, List.nil_append, List.head?_cons, Option.mem_some_iff] at hl
    exact hl ▸ by decide
  | cons r rs =>
    simp only [hr, List.cons_append, List.head?_cons, Option.mem_some_iff] at hl
    have hrun : isRun l := isRun_of_mem_runLines (a := a) (q := .escaped) (by simp [hr, hl])
    simp_all [isRun, isCondition]

/-- The text of an automation can be told from the lines after it. -/
theorem lines_append_inj {a b : Automation} {ls ms : List String}
    (h : a.lines .escaped ++ ls = b.lines .escaped ++ ms) :
    SameScript .escaped a b ∧ ls = ms := by
  simp only [lines, List.cons_append, List.append_assoc, List.nil_append] at h
  obtain ⟨hheader, hbody⟩ := List.cons.inj h
  obtain ⟨hname, htoken⟩ := header_inj hheader
  obtain ⟨hguards, hactions⟩ := run_append_inj
    (fun _ => isCondition_of_mem_guardLines) (fun _ => isCondition_of_mem_guardLines)
    (head_runLines_append a ls) (head_runLines_append b ms) hbody
  obtain ⟨hruns, hend⟩ := run_append_inj (fun _ => isRun_of_mem_runLines)
    (fun _ => isRun_of_mem_runLines) (by simp [isRun]) (by simp [isRun]) hactions
  exact ⟨⟨hname, htoken, hguards, hruns⟩, (List.cons.inj (List.cons.inj hend).2).2⟩

end Automation

namespace Program

theorem code_eq_joinLines (q : Quoting) (p : Program) :
    p.code q = joinLines (p.flatMap (Automation.lines q)) := by
  induction p with
  | nil => rfl
  | cons a p ih =>
    rw [List.flatMap_cons, joinLines_append, ← ih]
    simp [code, Automation.code]

theorem lines_inj {p r : Program}
    (h : p.flatMap (Automation.lines .escaped) = r.flatMap (Automation.lines .escaped)) :
    List.Forall₂ (Automation.SameScript .escaped) p r := by
  induction p generalizing r with
  | nil =>
    cases r with
    | nil => exact .nil
    | cons b r => simp [Automation.lines] at h
  | cons a p ih =>
    cases r with
    | nil => simp [Automation.lines] at h
    | cons b r =>
      obtain ⟨hab, hrest⟩ := Automation.lines_append_inj h
      exact .cons hab (ih hrest)

theorem flatMap_lines_eq {q : Quoting} {p r : Program}
    (h : List.Forall₂ (Automation.SameScript q) p r) :
    p.flatMap (Automation.lines q) = r.flatMap (Automation.lines q) := by
  induction h with
  | nil => rfl
  | cons hab _ ih => rw [List.flatMap_cons, List.flatMap_cons, hab.lines, ih]

theorem onOneLine_lines {p : Program} (h : ∀ a ∈ p, a.NamesOnOneLine) :
    ∀ l ∈ p.flatMap (Automation.lines .escaped), OnOneLine l := by
  intro l hl
  obtain ⟨a, ha, hl⟩ := List.mem_flatMap.1 hl
  exact (h a ha).lines l hl

/-- The text of a program says which automations it is of, as far as their lines do. -/
theorem code_eq_iff_sameScript {p r : Program} (hp : ∀ a ∈ p, a.NamesOnOneLine)
    (hr : ∀ a ∈ r, a.NamesOnOneLine) :
    p.code .escaped = r.code .escaped ↔ List.Forall₂ (Automation.SameScript .escaped) p r := by
  rw [code_eq_joinLines, code_eq_joinLines]
  constructor
  · intro h
    apply lines_inj
    exact joinLines_injective (onOneLine_lines hp) (onOneLine_lines hr) h
  · intro h
    rw [flatMap_lines_eq h]

/-- A trigger without a name is written as one that is missing. -/
theorem code_eq_iff_sameScript_unnamed :
    let p : Program := [{
      name := "\" (None) \x7b\nrun"
      trigger := some (.event "")
      actions := [{ call := some (.call .echo [some (.event "MotionEvent")]) }] }]
    let r : Program := [{
      name := "\" (None) \x7b\nrun"
      actions := [{}, { call := some (.call .echo [some (.event "MotionEvent")]) }] }]
    p.code .escaped = r.code .escaped ∧ List.Forall₂ (Automation.SameScript .escaped) p r := by
  intro p r
  have hp : ∀ a ∈ p, a.NamesOnOneLine := by
    intro a ha
    obtain rfl := List.mem_singleton.1 ha
    constructor <;> simp [Automation.exprs, Expr.NamesOnOneLine, Expr.nodes, Expr.argumentNodes,
      Expr.optionNodes, OnOneLine]
  have hr : ∀ a ∈ r, a.NamesOnOneLine := by
    intro a ha
    obtain rfl := List.mem_singleton.1 ha
    constructor <;> simp [Automation.exprs, Expr.NamesOnOneLine, Expr.nodes, Expr.argumentNodes,
      Expr.optionNodes, OnOneLine]
  have hs : List.Forall₂ (Automation.SameScript .escaped) p r :=
    .cons ⟨rfl, rfl, rfl, rfl⟩ .nil
  exact ⟨(code_eq_iff_sameScript hp hr).2 hs, hs⟩

end Program
end HomeScript
