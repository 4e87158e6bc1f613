import Mathlib.Algebra.GroupWithZero.Nat
import HomeScript.Proofs.Script.Lines

/-! # The two policies

Under the escaped policy a program is written as it is under the verbatim one, except for quotes,
backslashes and line breaks within its literals. Each of these takes one character more, so no two
of them make up for each other, and the texts agree only where there is none.
-/

namespace HomeScript

namespace Quoting

/-- The characters that the escaped policy writes with a backslash. -/
def isSpecial (c : Char) : Bool :=
  ['\"', '\\', '\n', '\r'].contains c

theorem length_escapeChar (c : Char) :
    (escapeChar c).length = 1 + if isSpecial c then 1 else 0 := by
  unfold escapeChar
  split <;> simp_all [isSpecial]

theorem escapeChar_of_not_isSpecial {c : Char} (h : isSpecial c = false) : escapeChar c = [c] := by
  unfold escapeChar
  split <;> simp_all [isSpecial]

/-- How many characters of these literals are written with a backslash. -/
def specials (literals : List String) : ℕ :=
  (literals.map fun s => s.toList.countP isSpecial).sum

theorem specials_append (literals more : List String) :
    specials (literals ++ more) = specials literals + specials more := by
  simp [specials]

theorem specials_eq_zero_iff {literals : List String} :
    specials literals = 0 ↔ ∀ s ∈ literals, ∀ c ∈ s.toList, isSpecial c = false := by
  simp [specials, List.sum_eq_zero_iff_forall_eq_nat, List.countP_eq_zero]

theorem length_content (cs : List Char) :
    (escaped.content cs).length = (verbatim.content cs).length + cs.countP isSpecial := by
  induction cs with
  | nil => rfl
  | cons c cs ih =>
    simp only [content, List.flatMap_cons, List.length_append, List.length_cons,
      length_escapeChar, List.countP_cons] at ih ⊢
    omega

theorem content_eq {cs : List Char} (h : ∀ c ∈ cs, isSpecial c = false) :
    escaped.content cs = verbatim.content cs := by
  induction cs with
  | nil => rfl
  | cons c cs ih =>
    obtain ⟨hc, hcs⟩ := List.forall_mem_cons.1 h
    have hrest := ih hcs
    simp only [content] at hrest ⊢
    rw [List.flatMap_cons, escapeChar_of_not_isSpecial hc, hrest, List.singleton_append]

end Quoting

open Quoting (specials)

/-! ## Texts with the same literals -/

/-- A text with these literals under the escaped policy, and the same one under the verbatim. -/
structure Escapes (literals : List String) (s t : String) : Prop where
  length : s.length = t.length + specials literals
  eq : specials literals = 0 → s = t

namespace Escapes
variable {literals more : List String} {s t s' t' : String}

theorem refl (s : String) : Escapes [] s s where
  length := rfl
  eq _ := rfl

theorem quote (s : String) :
    Escapes [s] (Quoting.escaped.quote s) (Quoting.verbatim.quote s) where
  length := by
    have hlength := Quoting.length_content s.toList
    simp only [Quoting.quote, String.length_ofList, List.length_append, List.length_cons, hlength,
      specials, List.map_singleton, List.sum_singleton]
    omega
  eq h := by
    rw [Quoting.specials_eq_zero_iff, List.forall_mem_singleton] at h
    rw [Quoting.quote, Quoting.quote, Quoting.content_eq h]

theorem append (h : Escapes literals s t) (h' : Escapes more s' t') :
    Escapes (literals ++ more) (s ++ s') (t ++ t') where
  length := by
    rw [String.length_append, String.length_append, h.length, h'.length, Quoting.specials_append]
    omega
  eq hz := by
    rw [Quoting.specials_append, Nat.add_eq_zero_iff] at hz
    rw [h.eq hz.1, h'.eq hz.2]

theorem after (h : Escapes literals s t) (u : String) : Escapes literals (u ++ s) (u ++ t) :=
  (refl u).append h

theorem before (h : Escapes literals s t) (u : String) : Escapes literals (s ++ u) (t ++ u) := by
  simpa using h.append (refl u)

theorem eq_iff (h : Escapes literals s t) : s = t ↔ specials literals = 0 := by
  constructor
  · intro hst
    have hlength := h.length
    rw [hst] at hlength
    omega
  · exact h.eq

end Escapes

/-- Texts one by one, with the literals of all of them. -/
inductive EscapesEach : List String → List String → List String → Prop
  | nil : EscapesEach [] [] []
  | cons {literals more : List String} {s t : String} {ss ts : List String}
      (h : Escapes literals s t) (hs : EscapesEach more ss ts) :
      EscapesEach (literals ++ more) (s :: ss) (t :: ts)

namespace EscapesEach
variable {literals more ss ts ss' ts' : List String}

theorem single {s t : String} (h : Escapes literals s t) : EscapesEach literals [s] [t] := by
  simpa using cons h nil

theorem append (h : EscapesEach literals ss ts) (h' : EscapesEach more ss' ts') :
    EscapesEach (literals ++ more) (ss ++ ss') (ts ++ ts') := by
  induction h with
  | nil => exact h'
  | cons hs _ ih =>
    rw [List.append_assoc]
    exact cons hs ih

theorem flatMap {α : Type} {l f g : α → List String} (h : ∀ x, EscapesEach (l x) (f x) (g x))
    (xs : List α) : EscapesEach (xs.flatMap l) (xs.flatMap f) (xs.flatMap g) := by
  induction xs with
  | nil => exact nil
  | cons x xs ih => exact (h x).append ih

theorem intercalate (separator : String) (h : EscapesEach literals ss ts) :
    Escapes literals (separator.intercalate ss) (separator.intercalate ts) := by
  induction h with
  | nil => exact .refl _
  | cons hs hrest ih =>
    cases hrest with
    | nil => simpa using hs
    | cons hs' hrest =>
      rw [String.intercalate_cons_cons, String.intercalate_cons_cons]
      exact (hs.before separator).append ih

theorem joinLines (h : EscapesEach literals ss ts) :
    Escapes literals (joinLines ss) (joinLines ts) := by
  induction h with
  | nil => exact .refl _
  | cons hs _ ih =>
    rw [joinLines_cons, joinLines_cons]
    exact (hs.before "\n").append ih

end EscapesEach

/-! ## Expressions -/

/-- The literal that a node of an expression is written as. -/
def Expr.literal? : Expr → Option String
  | .constant (.string s) => some s
  | .device h => some h.text
  | _ => none

/-- The literals among the nodes of expressions. -/
def Expr.literals (nodes : List Expr) : List String :=
  nodes.filterMap literal?

/-- The code under both policies, which binds alike. -/
structure Fragment.Escapes (literals : List String) (f g : Fragment) : Prop where
  code : HomeScript.Escapes literals f.code g.code
  binding : f.binding = g.binding

namespace Fragment.Escapes
variable {literals more : List String} {f g f' g' : Fragment}

theorem atomic {s t : String} (h : HomeScript.Escapes literals s t) :
    Escapes literals (.atomic s) (.atomic t) where
  code := h
  binding := rfl

theorem within (h : Escapes literals f g) (outer : Binding) :
    HomeScript.Escapes literals (f.within outer) (g.within outer) := by
  unfold Fragment.within
  rw [h.binding]
  split
  · exact (h.code.after "(").before ")"
  · exact h.code

theorem apply (op : Operator) (h : Escapes literals f g) (h' : Escapes more f' g') :
    Escapes (literals ++ more) (op.apply f f') (op.apply g g') := by
  unfold Operator.apply
  cases op.binding with
  | some b =>
    refine ⟨?_, rfl⟩
    exact (((h.within b).before " ").before op.symbol |>.before " ").append (h'.within b)
  | none =>
    refine atomic ?_
    have hl := (h.code.after "(").before ")"
    have hr := (h'.code.after "(").before ")"
    exact ((hl.before " ").before op.symbol |>.before " ").append hr

end Fragment.Escapes

namespace Expr

theorem literals_append (nodes more : List Expr) :
    literals (nodes ++ more) = literals nodes ++ literals more :=
  List.filterMap_append

mutual

theorem escapes_fragment :
    (e : Expr) → Fragment.Escapes (literals e.nodes) (e.fragment .escaped) (e.fragment .verbatim)
  | constant (.string s) => .atomic (.quote s)
  | constant (.number _) | constant (.boolean _) | constant .null => .atomic (.refl _)
  | device h => .atomic (.quote h.text)
  | event _ => .atomic (.refl _)
  | call f arguments => by
    have harguments := (escapesEach_argumentCodes f.slots arguments).intercalate ", "
    exact ⟨(harguments.after (f.name ++ "(")).before ")", rfl⟩
  | binary op left right => by
    have hnodes : literals (binary op left right).nodes
        = literals (optionNodes left) ++ literals (optionNodes right) := literals_append ..
    rw [hnodes]
    exact .apply op (escapes_slotFragment _ left) (escapes_slotFragment _ right)
  | negation operand => ⟨(escapes_slotFragment .boolean operand).code.after "not ", rfl⟩

theorem escapes_slotFragment (slot : Slot) : (a : Option Expr) →
    Fragment.Escapes (literals (optionNodes a)) (slotFragment .escaped slot a)
      (slotFragment .verbatim slot a)
  | some e => escapes_fragment e
  | none => .atomic (.refl _)

theorem escapesEach_argumentCodes : (slots : List Slot) → (arguments : List (Option Expr)) →
    EscapesEach (literals (argumentNodes arguments)) (argumentCodes .escaped slots arguments)
      (argumentCodes .verbatim slots arguments)
  | slots, [] => by
    have hdefaults := EscapesEach.flatMap (fun slot => .single (.refl slot.default)) slots
    have hnone : slots.flatMap (fun _ => ([] : List String)) = [] := by simp
    rwa [hnone, ← List.map_eq_flatMap] at hdefaults
  | [], a :: rest => by
    rw [argumentNodes, literals_append]
    exact .cons (escapes_slotFragment .any a).code (escapesEach_argumentCodes [] rest)
  | slot :: slots, a :: rest => by
    rw [argumentNodes, literals_append]
    exact .cons (escapes_slotFragment slot a).code (escapesEach_argumentCodes slots rest)

end

end Expr

/-! ## Programs -/

def Trigger.literals : Trigger → List String
  | event _ => []
  | deviceEvent _ h => [h.text]
  | time t => [t]

/-- All literals that an automation is written with: its name, the device or the time of its
trigger, and those of its conditions and calls. -/
def Automation.literals (a : Automation) : List String :=
  [a.name] ++ a.trigger.toList.flatMap Trigger.literals
    ++ a.condition.toList.flatMap (fun e => Expr.literals e.nodes)
    ++ a.guards.flatMap (fun g => Expr.literals (Expr.optionNodes g.expr))
    ++ a.actions.flatMap fun action => Expr.literals (Expr.optionNodes action.call)

def Program.literals (p : Program) : List String :=
  p.flatMap Automation.literals

theorem escapes_conditionLine (c : Option Expr) :
    Escapes (Expr.literals (Expr.optionNodes c)) (conditionLine .escaped c)
      (conditionLine .verbatim c) :=
  (Expr.escapes_slotFragment .boolean c).code.after "if "

theorem Trigger.escapesEach_guardLine (t : Trigger) :
    EscapesEach t.literals (t.guardLine .escaped).toList (t.guardLine .verbatim).toList := by
  cases t with
  | event e => exact .nil
  | deviceEvent e h =>
    have hcode := (Expr.escapes_fragment (isFromDevice h)).code
    exact .single (((hcode.after "(").before ")").after "if ")
  | time t => exact .single (escapes_conditionLine (some (isAtTime t)))

namespace Automation

theorem escapesEach_guardLines (a : Automation) :
    EscapesEach (a.trigger.toList.flatMap Trigger.literals
        ++ a.condition.toList.flatMap (fun e => Expr.literals e.nodes)
        ++ a.guards.flatMap fun g => Expr.literals (Expr.optionNodes g.expr))
      (a.guardLines .escaped) (a.guardLines .verbatim) := by
  have htrigger (q : Quoting) : (a.trigger.bind (Trigger.guardLine q)).toList
      = a.trigger.toList.flatMap fun t => (t.guardLine q).toList := by
    cases a.trigger <;> simp
  have hcondition (q : Quoting) : (a.condition.map fun e => conditionLine q (some e)).toList
      = a.condition.toList.flatMap fun e => [conditionLine q (some e)] := by
    cases a.condition <;> rfl
  simp only [guardLines, htrigger, hcondition, List.map_eq_flatMap]
  refine EscapesEach.append (EscapesEach.append ?_ ?_) ?_
  · exact .flatMap Trigger.escapesEach_guardLine _
  · exact .flatMap (fun e => .single (escapes_conditionLine (some e))) _
  · exact .flatMap (fun g : Guard => .single (escapes_conditionLine g.expr)) _

theorem escapesEach_runLines (a : Automation) :
    EscapesEach (a.actions.flatMap fun action => Expr.literals (Expr.optionNodes action.call))
      (a.runLines .escaped) (a.runLines .verbatim) := by
  simp only [runLines, List.filterMap_eq_flatMap_toList]
  refine .flatMap ?_ _
  rintro ⟨_ | e⟩
  · exact .nil
  · exact .single ((Expr.escapes_fragment e).code.after "run ")

theorem escapesEach_lines (a : Automation) :
    EscapesEach a.literals (a.lines .escaped) (a.lines .verbatim) := by
  have hheader : Escapes [a.name] (a.header .escaped) (a.header .verbatim) :=
    (((Escapes.quote a.name).after "automation ").before " (" |>.before a.triggerToken).before
      ") \x7b"
  have hend : EscapesEach [] ["\x7d", ""] ["\x7d", ""] := .cons (.refl _) (.single (.refl _))
  have hlines := (EscapesEach.cons hheader a.escapesEach_guardLines).append a.escapesEach_runLines
    |>.append hend
  simpa [literals, lines, List.append_assoc] using hlines

end Automation

/-- The two policies give the same text exactly if no literal of the program has a quote, a
backslash or a line break in it, and every expression binds alike under both. -/
theorem Program.code_escaped_eq_verbatim_iff (p : Program) :
    (p.code .escaped = p.code .verbatim
        ↔ ∀ s ∈ p.literals, ∀ c ∈ s.toList, c ≠ '\"' ∧ c ≠ '\\' ∧ c ≠ '\n' ∧ c ≠ '\r')
      ∧ ∀ e : Expr, (e.fragment .escaped).binding = (e.fragment .verbatim).binding := by
  have hlines : EscapesEach p.literals (p.flatMap (Automation.lines .escaped))
      (p.flatMap (Automation.lines .verbatim)) := .flatMap Automation.escapesEach_lines p
  refine ⟨?_, fun e => (Expr.escapes_fragment e).binding⟩
  rw [code_eq_joinLines, code_eq_joinLines, hlines.joinLines.eq_iff,
    Quoting.specials_eq_zero_iff]
  simp [Quoting.isSpecial]

end HomeScript
