import HomeScript.Proofs.Script.Literal
import HomeScript.Script.Expr

/-! # Terms

A term is what an expression says in code: nothing is left unconnected, a device is the text of its
handle, and a number is its digits. The code of an expression is the code of its term.
-/

namespace HomeScript

namespace Expr

mutual

/-- An expression and all those within it. -/
def nodes : Expr → List Expr
  | call f arguments => call f arguments :: argumentNodes arguments
  | binary op left right => binary op left right :: (optionNodes left ++ optionNodes right)
  | negation operand => negation operand :: optionNodes operand
  | e => [e]

def optionNodes : Option Expr → List Expr
  | some e => e.nodes
  | none => []

def argumentNodes : List (Option Expr) → List Expr
  | [] => []
  | a :: rest => optionNodes a ++ argumentNodes rest

end

theorem self_mem_nodes (e : Expr) : e ∈ e.nodes := by
  cases e <;> simp [nodes]

/-- Events stand where an automation is set off, not where a value is. -/
def IsEventFree (e : Expr) : Prop :=
  ∀ name, event name ∉ e.nodes

/-- No negation has a bare arithmetic operation or comparison behind it. -/
def NegatesNoInfix (e : Expr) : Prop :=
  ∀ op left right, negation (some (binary op left right)) ∈ e.nodes → op.kind = .logical

end Expr

inductive Term where
  | string (s : String)
  | number (text : String)
  | boolean (b : Bool)
  | null
  | event (name : String)
  | call (function : Builtin) (arguments : List Term)
  | binary (operator : Operator) (left right : Term)
  | negation (operand : Term)

/-- The constant that stands in a slot with nothing connected. -/
def Slot.filler : Slot → Term
  | string => .string ""
  | number => .number (Script.number .zero)
  | boolean => .boolean false
  | any => .null

namespace Expr

def constantTerm : Constant → Term
  | .string s => .string s
  | .number x => .number (Script.number x)
  | .boolean b => .boolean b
  | .null => .null

mutual

def filled : Expr → Term
  | constant c => constantTerm c
  | device h => .string h.text
  | event name => .event name
  | call f arguments => .call f (filledArguments f.slots arguments)
  | binary op left right =>
    .binary op (filledSlot op.kind.slot left) (filledSlot op.kind.slot right)
  | negation operand => .negation (filledSlot .boolean operand)

def filledSlot (slot : Slot) : Option Expr → Term
  | some e => e.filled
  | none => slot.filler

def filledArguments : List Slot → List (Option Expr) → List Term
  | slots, [] => slots.map Slot.filler
  | [], a :: rest => filledSlot .any a :: filledArguments [] rest
  | slot :: slots, a :: rest => filledSlot slot a :: filledArguments slots rest

end

end Expr

theorem Fragment.eq_of_toList {f g : Fragment} (hc : f.code.toList = g.code.toList)
    (hb : f.binding = g.binding) : f = g := by
  cases f; cases g; simp_all [String.toList_inj]

namespace Term

def binding : Term → Binding
  | call _ _ => .functionCall
  | binary op _ _ => op.binding.getD .atomic
  | negation _ => .logicalNot
  | _ => .atomic

def parenthesizedIf (p : Bool) (cs : List Char) : List Char :=
  if p then '(' :: cs ++ [')'] else cs

mutual

def code : Term → List Char
  | string s => (Quoting.escaped.quote s).toList
  | number text => text.toList
  | boolean b => (if b then "true" else "false").toList
  | null => "null".toList
  | event name => name.toList
  | call f arguments =>
    f.name.toList ++ '(' :: [',', ' '].intercalate (codes arguments) ++ [')']
  | binary op left right =>
    match op.binding with
    | some b =>
      parenthesizedIf (left.binding.needsParens b) left.code
        ++ ' ' :: op.symbol.toList ++ ' ' ::
          parenthesizedIf (right.binding.needsParens b) right.code
    | none =>
      '(' :: left.code ++ ')' :: ' ' :: op.symbol.toList ++ ' ' :: '(' :: right.code ++ [')']
  | negation operand => "not ".toList ++ operand.code

def codes : List Term → List (List Char)
  | [] => []
  | t :: rest => t.code :: codes rest

end

/-- A term whose code can be scanned: numbers are numerals and events have no names in it. The
operands of its negations are of some kind. -/
inductive IsWritten (P : Term → Prop) : Term → Prop
  | string (s : String) : IsWritten P (.string s)
  | number {text : String} (h : IsNumeral text.toList) : IsWritten P (.number text)
  | boolean (b : Bool) : IsWritten P (.boolean b)
  | null : IsWritten P .null
  | call {f : Builtin} {arguments : List Term} (h : ∀ t ∈ arguments, IsWritten P t) :
      IsWritten P (.call f arguments)
  | binary {op : Operator} {left right : Term} (hl : IsWritten P left) (hr : IsWritten P right) :
      IsWritten P (.binary op left right)
  | negation {operand : Term} (h : IsWritten P operand) (hp : P operand) :
      IsWritten P (.negation operand)

def isInfix : Term → Bool
  | binary op _ _ => op.binding.isSome
  | _ => false

def fragment (t : Term) : Fragment :=
  ⟨String.ofList t.code, t.binding⟩

@[simp] theorem toList_code_fragment (t : Term) : t.fragment.code.toList = t.code :=
  String.toList_ofList

@[simp] theorem binding_fragment (t : Term) : t.fragment.binding = t.binding := rfl

def within (outer : Binding) (t : Term) : List Char :=
  parenthesizedIf (t.binding.needsParens outer) t.code

theorem codes_eq_map (ts : List Term) : codes ts = ts.map code := by
  induction ts with
  | nil => rfl
  | cons t ts ih => simp [codes, ih]

/-- An argument with the comma before it. -/
def argumentCode (t : Term) : List Char :=
  ',' :: ' ' :: t.code

theorem intercalate_codes (t : Term) (ts : List Term) :
    [',', ' '].intercalate (codes (t :: ts)) = t.code ++ ts.flatMap argumentCode := by
  induction ts generalizing t with
  | nil => simp [codes]
  | cons u ts ih =>
    rw [codes, codes, List.intercalate_cons_cons, ← codes, ih]
    simp [argumentCode]

theorem code_infixed {op : Operator} {b : Binding} (h : op.binding = some b) (left right : Term) :
    (binary op left right).code
      = left.within b ++ ' ' :: op.symbol.toList ++ ' ' :: right.within b := by
  simp [code, h, within]

theorem code_logical {op : Operator} (h : op.binding = none) (left right : Term) :
    (binary op left right).code
      = '(' :: left.code ++ ')' :: ' ' :: op.symbol.toList
        ++ ' ' :: '(' :: right.code ++ [')'] := by
  simp [code, h]

theorem toList_fragment_within (t : Term) (outer : Binding) :
    (t.fragment.within outer).toList = t.within outer := by
  unfold Fragment.within within parenthesizedIf fragment
  split <;> simp [Fragment.parenthesized]

theorem binding_infixed {op : Operator} {b : Binding} (h : op.binding = some b)
    (left right : Term) : (binary op left right).binding = b := by
  simp [binding, h]

theorem binding_logical {op : Operator} (h : op.binding = none) (left right : Term) :
    (binary op left right).binding = .atomic := by
  simp [binding, h]

theorem apply_fragment (op : Operator) (left right : Term) :
    op.apply left.fragment right.fragment = (binary op left right).fragment := by
  cases h : op.binding with
  | some b =>
    refine Fragment.eq_of_toList ?_ ?_
    · simp [Operator.apply, h, code_infixed h, toList_fragment_within]
    · simp [Operator.apply, h, binding_infixed h]
  | none =>
    refine Fragment.eq_of_toList ?_ ?_
    · simp [Operator.apply, h, code_logical h, Fragment.atomic, Fragment.parenthesized]
    · simp [Operator.apply, h, binding_logical h, Fragment.atomic]

end Term

theorem Slot.fragment_filler (slot : Slot) : slot.filler.fragment = .atomic slot.default := by
  cases slot <;> decide

namespace Expr

theorem fragment_constantTerm (c : Constant) :
    (constantTerm c).fragment = c.fragment .escaped := by
  cases c with
  | boolean b => cases b <;> rfl
  | _ => exact Fragment.eq_of_toList (by simp [constantTerm, Constant.fragment, Term.code,
      Fragment.atomic]) rfl

mutual

/-- Nothing but the term of an expression can be seen in its code. -/
theorem fragment_filled : (e : Expr) → e.filled.fragment = e.fragment .escaped
  | constant c => fragment_constantTerm c
  | device h => Fragment.eq_of_toList (by simp [filled, fragment, Term.code, Fragment.atomic]) rfl
  | event name =>
    Fragment.eq_of_toList (by simp [filled, fragment, Term.code, Fragment.atomic]) rfl
  | call f arguments => by
    refine Fragment.eq_of_toList ?_ rfl
    simp [filled, fragment, Term.code, Term.codes_eq_map, String.toList_intercalate,
      map_toList_argumentCodes f.slots arguments]
  | binary op left right => by
    rw [filled, fragment, ← fragment_filledSlot, ← fragment_filledSlot, Term.apply_fragment]
  | negation operand => by
    refine Fragment.eq_of_toList ?_ rfl
    simp [filled, fragment, Term.code, ← fragment_filledSlot]

theorem fragment_filledSlot (slot : Slot) :
    (a : Option Expr) → (filledSlot slot a).fragment = slotFragment .escaped slot a
  | some e => fragment_filled e
  | none => slot.fragment_filler

theorem map_toList_argumentCodes : (slots : List Slot) → (arguments : List (Option Expr)) →
    (argumentCodes .escaped slots arguments).map String.toList
      = (filledArguments slots arguments).map Term.code
  | slots, [] => by
    simp [argumentCodes, filledArguments, ← Term.toList_code_fragment, Slot.fragment_filler,
      Fragment.atomic]
  | [], a :: rest => by
    simp [argumentCodes, filledArguments, ← fragment_filledSlot, map_toList_argumentCodes [] rest]
  | slot :: slots, a :: rest => by
    simp [argumentCodes, filledArguments, ← fragment_filledSlot,
      map_toList_argumentCodes slots rest]

end

theorem isWritten_filler {P : Term → Prop} (slot : Slot) : slot.filler.IsWritten P := by
  cases slot with
  | number => exact .number (isNumeral_number _)
  | string => exact .string _
  | boolean => exact .boolean _
  | any => exact .null

/-- There are no events among some expressions, and their negations have operands of some kind. -/
structure AreWritten (P : Term → Prop) (es : List Expr) : Prop where
  noEvent : ∀ name, event name ∉ es
  operand : ∀ a, negation a ∈ es → P (filledSlot .boolean a)

section
variable {P : Term → Prop}

theorem AreWritten.mono {es fs : List Expr} (h : AreWritten P es) (hs : fs ⊆ es) :
    AreWritten P fs where
  noEvent name hn := h.noEvent name (hs hn)
  operand a ha := h.operand a (hs ha)

mutual

theorem isWritten_filled : (e : Expr) → AreWritten P e.nodes → e.filled.IsWritten P
  | constant (.string s), _ => .string s
  | constant (.number x), _ => .number (isNumeral_number x)
  | constant (.boolean b), _ => .boolean b
  | constant .null, _ => .null
  | device h, _ => .string h.text
  | event name, h => absurd (self_mem_nodes _) (h.noEvent name)
  | call f arguments, h => by
    refine .call ?_
    exact isWritten_filledArguments f.slots arguments (h.mono (List.subset_cons_self _ _))
  | binary op left right, h => by
    refine .binary ?_ ?_
    · exact isWritten_filledSlot _ left (h.mono (by simp [nodes]))
    · exact isWritten_filledSlot _ right (h.mono (by simp [nodes]))
  | negation operand, h => by
    refine .negation ?_ ?_
    · exact isWritten_filledSlot _ operand (h.mono (List.subset_cons_self _ _))
    · exact h.operand operand (self_mem_nodes _)

theorem isWritten_filledSlot (slot : Slot) :
    (a : Option Expr) → AreWritten P (optionNodes a) → (filledSlot slot a).IsWritten P
  | some e, h => isWritten_filled e h
  | none, _ => isWritten_filler slot

theorem isWritten_filledArguments : (slots : List Slot) → (arguments : List (Option Expr)) →
    AreWritten P (argumentNodes arguments) → ∀ t ∈ filledArguments slots arguments, t.IsWritten P
  | slots, [], _ => by
    rw [filledArguments, List.forall_mem_map]
    intro slot _
    exact isWritten_filler slot
  | [], a :: rest, h => by
    rw [filledArguments, List.forall_mem_cons]
    constructor
    · exact isWritten_filledSlot .any a (h.mono (by simp [argumentNodes]))
    · exact isWritten_filledArguments [] rest (h.mono (by simp [argumentNodes]))
  | slot :: slots, a :: rest, h => by
    rw [filledArguments, List.forall_mem_cons]
    constructor
    · exact isWritten_filledSlot slot a (h.mono (by simp [argumentNodes]))
    · exact isWritten_filledArguments slots rest (h.mono (by simp [argumentNodes]))

end

end

end Expr
end HomeScript
