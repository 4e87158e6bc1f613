import HomeScript.Automation.Basic
import HomeScript.Script.Fragment
import HomeScript.Script.Number
import HomeScript.Script.Quoting

/-! # Code of expressions

Operands of a logical operator always stand in parentheses, so that such code counts as atomic;
operands of the other operators do where they do not bind tightly enough.
-/

namespace HomeScript

def Constant.fragment (q : Quoting) : Constant → Fragment
  | string s => .atomic (q.quote s)
  | number x => .atomic (Script.number x)
  | boolean b => .atomic (if b then "true" else "false")
  | null => .atomic "null"

namespace Operator

/-- The binding of an operator that leaves its operands bare where it can. -/
def binding (op : Operator) : Option Binding :=
  match op.kind with
  | .arithmetic => some .arithmetic
  | .comparison => some .relational
  | .logical => none

def apply (op : Operator) (left right : Fragment) : Fragment :=
  match op.binding with
  | some b => ⟨left.within b ++ " " ++ op.symbol ++ " " ++ right.within b, b⟩
  | none =>
    .atomic (Fragment.parenthesized left.code ++ " " ++ op.symbol ++ " "
      ++ Fragment.parenthesized right.code)

end Operator

namespace Expr

mutual

def fragment (q : Quoting) : Expr → Fragment
  | constant c => c.fragment q
  | device h => .atomic (q.quote h.text)
  | event name => .atomic name
  | call f arguments =>
    ⟨f.name ++ "(" ++ ", ".intercalate (argumentCodes q f.slots arguments) ++ ")", .functionCall⟩
  | binary op left right =>
    op.apply (slotFragment q op.kind.slot left) (slotFragment q op.kind.slot right)
  | negation operand => ⟨"not " ++ (slotFragment q .boolean operand).code, .logicalNot⟩

/-- What stands in a slot: the connected expression or the default of the slot. -/
def slotFragment (q : Quoting) (slot : Slot) : Option Expr → Fragment
  | some e => e.fragment q
  | none => .atomic slot.default

/-- Arguments beyond the declared slots are of any type; missing ones are unconnected. -/
def argumentCodes (q : Quoting) : List Slot → List (Option Expr) → List String
  | slots, [] => slots.map Slot.default
  | [], a :: rest => (slotFragment q .any a).code :: argumentCodes q [] rest
  | slot :: slots, a :: rest => (slotFragment q slot a).code :: argumentCodes q slots rest

end

end Expr
end HomeScript
