/-! # Fragments of code

A piece of code comes with how tightly it binds, so that the operators around it know whether it
needs parentheses.
-/

namespace HomeScript

/-- Binding strength, tightest first. -/
inductive Binding where
  | atomic
  | functionCall
  | logicalNot
  | arithmetic
  | relational
  | logicalAnd
  | logicalOr
  | loosest
  deriving DecidableEq

namespace Binding

def all : List Binding :=
  [atomic, functionCall, logicalNot, arithmetic, relational, logicalAnd, logicalOr, loosest]

def rank : Binding → Nat
  | atomic => 0
  | functionCall => 1
  | logicalNot => 2
  | arithmetic => 3
  | relational => 4
  | logicalAnd => 5
  | logicalOr => 6
  | loosest => 7

/-- Whether the left one binds more tightly. -/
instance : LT Binding := ⟨fun a b => a.rank < b.rank⟩

instance (a b : Binding) : Decidable (a < b) :=
  inferInstanceAs (Decidable (a.rank < b.rank))

/-- Operands must bind more tightly than the operator around them. -/
def needsParens (inner outer : Binding) : Bool :=
  ¬ inner < outer

end Binding

structure Fragment where
  code : String
  binding : Binding
  deriving DecidableEq

namespace Fragment

def atomic (code : String) : Fragment :=
  ⟨code, .atomic⟩

def parenthesized (code : String) : String :=
  "(" ++ code ++ ")"

/-- The code as an operand of an operator of the given binding. -/
def within (f : Fragment) (outer : Binding) : String :=
  if f.binding.needsParens outer then parenthesized f.code else f.code

end Fragment
end HomeScript
