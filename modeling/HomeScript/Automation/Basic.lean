import HomeScript.Automation.Builtin
import HomeScript.Automation.Operator
import HomeScript.Device.Handle
import HomeScript.Number.Double

/-! # Automations

An automation says what sets it off, which conditions must hold, and what is run then. Whatever
the user can leave unconnected is optional; an empty text is a value.
-/

namespace HomeScript

inductive Constant where
  | string (s : String)
  | number (x : Double)
  | boolean (b : Bool)
  | null
  deriving DecidableEq

inductive Expr where
  | constant (value : Constant)
  | device (handle : Handle)
  | event (name : String)
  | call (function : Builtin) (arguments : List (Option Expr))
  | binary (operator : Operator) (left right : Option Expr)
  | negation (operand : Option Expr)

/-- An event, an event emitted by one device, or a time of day. -/
inductive Trigger where
  | event (event : String)
  | deviceEvent (event : String) (device : Handle)
  | time (time : String)
  deriving DecidableEq

/-- A condition placed among the actions. -/
structure Guard where
  expr : Option Expr := none

structure Action where
  call : Option Expr := none

structure Automation where
  /-- The block of the editor that owns the automation. -/
  id : Option String := none
  name : String
  trigger : Option Trigger := none
  condition : Option Expr := none
  guards : List Guard := []
  actions : List Action := []

abbrev Program := List Automation

namespace Expr

def string (s : String) : Expr :=
  constant (.string s)

def number (x : Double) : Expr :=
  constant (.number x)

def boolean (b : Bool) : Expr :=
  constant (.boolean b)

def null : Expr :=
  constant .null

end Expr
end HomeScript
