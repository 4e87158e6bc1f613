import HomeScript.Automation.Slot

/-! # Operators

The binary operators, each with the slot of both its operands.
-/

namespace HomeScript

inductive OperatorKind where
  | arithmetic
  | comparison
  | logical
  deriving DecidableEq

def OperatorKind.slot : OperatorKind → Slot
  | arithmetic => .number
  | comparison => .any
  | logical => .boolean

inductive Operator where
  | add
  | subtract
  | multiply
  | divide
  | greater
  | lesser
  | equals
  | and
  | or
  deriving DecidableEq

namespace Operator

def all : List Operator :=
  [add, subtract, multiply, divide, greater, lesser, equals, and, or]

def name : Operator → String
  | add => "add"
  | subtract => "subtract"
  | multiply => "multiply"
  | divide => "divide"
  | greater => "greater"
  | lesser => "lesser"
  | equals => "equals"
  | and => "and"
  | or => "or"

def symbol : Operator → String
  | add => "+"
  | subtract => "-"
  | multiply => "*"
  | divide => "/"
  | greater => ">"
  | lesser => "<"
  | equals => "=="
  | and => "and"
  | or => "or"

def kind : Operator → OperatorKind
  | add | subtract | multiply | divide => .arithmetic
  | greater | lesser | equals => .comparison
  | and | or => .logical

theorem mem_all (op : Operator) : op ∈ all := by
  cases op <;> decide

end Operator
end HomeScript
