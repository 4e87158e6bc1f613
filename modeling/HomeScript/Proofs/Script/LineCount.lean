import Mathlib.Algebra.GroupWithZero.Nat
import HomeScript.Proofs.Script.Lines

/-! # How many lines a program takes

An automation takes a line for each of its guards and calls, and three more. The name of the event
that sets it off is written as it is, so line feeds in it come on top of that.
-/

namespace HomeScript

def lineFeeds (s : String) : ℕ :=
  s.toList.count '\n'

theorem lineFeeds_append (s t : String) : lineFeeds (s ++ t) = lineFeeds s + lineFeeds t := by
  rw [lineFeeds, String.toList_append, List.count_append]
  rfl

theorem lineFeeds_eq_zero_iff {s : String} : lineFeeds s = 0 ↔ OnOneLine s :=
  List.count_eq_zero

theorem lineFeeds_joinLines (ls : List String) :
    lineFeeds (joinLines ls) = (ls.map fun l => lineFeeds l + 1).sum := by
  induction ls with
  | nil => rfl
  | cons l ls ih =>
    have hline : lineFeeds (joinLines [l]) = lineFeeds l + 1 := by
      rw [lineFeeds, toList_joinLines]
      simp [lineFeeds]
    rw [← List.singleton_append, joinLines_append, lineFeeds_append, hline, ih]
    rfl

theorem sum_of_onOneLine {ls : List String} (h : ∀ l ∈ ls, OnOneLine l) :
    (ls.map fun l => lineFeeds l + 1).sum = ls.length := by
  rw [List.map_congr_left fun l hl => by rw [lineFeeds_eq_zero_iff.2 (h l hl)]]
  simp

/-- A trigger that asks for a device or a time has a guard. -/
def Trigger.guardCount : Trigger → ℕ
  | event _ => 0
  | deviceEvent _ _ | time _ => 1

namespace Automation

def guardCount (a : Automation) : ℕ :=
  (a.trigger.map Trigger.guardCount).getD 0 + a.condition.toList.length + a.guards.length

def callCount (a : Automation) : ℕ :=
  a.actions.countP fun action => action.call.isSome

/-- The lines of an automation: header, guards, calls, closing brace and an empty line. -/
def lineCount (a : Automation) : ℕ :=
  3 + a.guardCount + a.callCount

theorem length_guardLines (q : Quoting) (a : Automation) :
    (a.guardLines q).length = a.guardCount := by
  have htrigger : (a.trigger.bind (Trigger.guardLine q)).toList.length
      = (a.trigger.map Trigger.guardCount).getD 0 := by
    rcases a.trigger with _ | _ | _ | _ <;> rfl
  have hcondition : (a.condition.map fun e => conditionLine q (some e)).toList.length
      = a.condition.toList.length := by
    cases a.condition <;> rfl
  rw [guardLines, List.length_append, List.length_append, htrigger, hcondition, List.length_map,
    guardCount]

theorem length_runLines (q : Quoting) (a : Automation) : (a.runLines q).length = a.callCount := by
  have hcall (action : Action) : (action.line q).isSome = action.call.isSome :=
    Option.isSome_map
  rw [runLines, List.length_filterMap_eq_countP, callCount]
  exact List.countP_congr fun action _ => by rw [hcall]

theorem lineFeeds_header (a : Automation) :
    lineFeeds (a.header .escaped) = lineFeeds a.triggerToken := by
  have hname : lineFeeds (Quoting.escaped.quote a.name) = 0 :=
    lineFeeds_eq_zero_iff.2 (Quoting.lineFeed_not_mem_quote a.name)
  have hrest : lineFeeds "automation " = 0 ∧ lineFeeds " (" = 0 ∧ lineFeeds ") \x7b" = 0 := by
    decide
  simp only [header, lineFeeds_append, hname, hrest]
  omega

/-- Where no expression names an event, only the event of the trigger can break a line. -/
theorem lineFeeds_code {a : Automation} (h : Expr.NamesOnOneLine (a.exprs.flatMap Expr.nodes)) :
    lineFeeds (a.code .escaped) = a.lineCount + lineFeeds a.triggerToken := by
  have hguards : ((a.guardLines .escaped).map fun l => lineFeeds l + 1).sum = a.guardCount := by
    rw [sum_of_onOneLine fun l => onOneLine_of_mem_guardLines h, length_guardLines]
  have hruns : ((a.runLines .escaped).map fun l => lineFeeds l + 1).sum = a.callCount := by
    rw [sum_of_onOneLine fun l => onOneLine_of_mem_runLines h, length_runLines]
  -- What is left is the header, where the name is quoted but the event is not.
  have hend : (["\x7d", ""].map fun l => lineFeeds l + 1).sum = 2 := by decide
  rw [code, lineFeeds_joinLines, lines, List.map_append, List.map_append, List.map_cons,
    List.sum_append, List.sum_append, List.sum_cons, hguards, hruns, hend, lineFeeds_header,
    lineCount]
  omega

end Automation

namespace Program

theorem lineFeeds_code {p : Program}
    (h : ∀ a ∈ p, Expr.NamesOnOneLine (a.exprs.flatMap Expr.nodes)) :
    lineFeeds (p.code .escaped) = (p.map Automation.lineCount).sum
      + (p.map fun a => lineFeeds a.triggerToken).sum := by
  induction p with
  | nil => rfl
  | cons a p ih =>
    obtain ⟨ha, hp⟩ := List.forall_mem_cons.1 h
    have hcode : Program.code .escaped (a :: p) = a.code .escaped ++ Program.code .escaped p := by
      simp [code]
    rw [hcode, lineFeeds_append, Automation.lineFeeds_code ha, ih hp]
    simp only [List.map_cons, List.sum_cons]
    omega

theorem sum_lineFeeds_eq_zero_iff (p : Program) :
    (p.map fun a => lineFeeds a.triggerToken).sum = 0 ↔ ∀ a ∈ p, OnOneLine a.triggerToken := by
  rw [List.sum_eq_zero_iff_forall_eq_nat, List.forall_mem_map]
  exact forall₂_congr fun a _ => lineFeeds_eq_zero_iff

end Program
end HomeScript
