import HomeScript.Proofs.Script.Scan

/-! # Binding strength of code

The binding of a fragment bounds how loosely the operators in it bind that no parentheses hold
together. Logical operators are left out of this, since their code counts as atomic, and so is what
stands behind `not`, which never puts its operand in parentheses.
-/

namespace HomeScript

/-- An operator as it stands in code. -/
inductive OperatorToken where
  | negation
  | binary (op : Operator)
  deriving DecidableEq

namespace OperatorToken

def all : List OperatorToken :=
  negation :: Operator.all.map binary

def spelling : OperatorToken → List Char
  | negation => "not".toList
  | binary op => op.symbol.toList

/-- How tightly the runtime binds an operator. -/
def strength : OperatorToken → Binding
  | negation => .logicalNot
  | binary .and => .logicalAnd
  | binary .or => .logicalOr
  | binary op => op.binding.getD .loosest

def isLogical : OperatorToken → Bool
  | negation => false
  | binary op => op.kind == .logical

def ofWord (w : List Char) : Option OperatorToken :=
  all.find? fun t => t.spelling == w

theorem mem_all (t : OperatorToken) : t ∈ all := by
  cases t with
  | negation => exact List.mem_cons_self
  | binary op => exact List.mem_cons_of_mem _ (List.mem_map_of_mem op.mem_all)

theorem ofWord_spelling (t : OperatorToken) : ofWord t.spelling = some t :=
  (by decide : ∀ t ∈ all, ofWord t.spelling = some t) t t.mem_all

theorem ofWord_symbol (op : Operator) : ofWord op.symbol.toList = some (binary op) :=
  ofWord_spelling (binary op)

theorem ofWord_name (f : Builtin) : ofWord f.name.toList = none :=
  (by decide : ∀ f ∈ Builtin.all, ofWord f.name.toList = none) f f.mem_all

theorem ofWord_numeral {cs : List Char} (h : IsNumeral cs) : ofWord cs = none := by
  obtain ⟨c, hc, hd⟩ := h.exists_digit
  refine List.find?_eq_none.2 ?_
  intro t ht he
  obtain rfl : t.spelling = cs := by simpa using he
  have hplain := List.all_eq_true.1
    ((by decide : ∀ t ∈ all, t.spelling.all fun c => !c.isDigit) t ht) c hc
  simp [hd] at hplain

end OperatorToken

/-- The operators of code that stand outside its literals and parentheses, if these are closed. -/
def bareOperators (code : String) : Option (List OperatorToken) :=
  (bareWords code.toList).map (List.filterMap OperatorToken.ofWord)

/-- An operator of a term that no parentheses hold together with its operands, and whether it
belongs to the operand of a negation. -/
structure Exposed where
  token : OperatorToken
  negated : Bool := false

namespace Term

def exposed : Term → List Exposed
  | binary op left right =>
    match op.binding with
    | some b =>
      (if left.binding.needsParens b then [] else left.exposed) ++ { token := .binary op }
        :: (if right.binding.needsParens b then [] else right.exposed)
    | none => [{ token := .binary op }]
  | negation operand =>
    { token := .negation } :: operand.exposed.map fun x => { x with negated := true }
  | _ => []

def exposedWithin (outer : Binding) (t : Term) : List Exposed :=
  if t.binding.needsParens outer then [] else t.exposed

theorem exposed_infixed {op : Operator} {b : Binding} (h : op.binding = some b)
    (left right : Term) : (binary op left right).exposed
      = left.exposedWithin b ++ { token := .binary op } :: right.exposedWithin b := by
  simp [exposed, h, exposedWithin]

theorem exposed_logical {op : Operator} (h : op.binding = none) (left right : Term) :
    (binary op left right).exposed = [{ token := .binary op }] := by
  simp [exposed, h]

theorem operators_bareWords {P : Term → Prop} {t : Term} (h : t.IsWritten P) :
    t.bareWords.filterMap OperatorToken.ofWord = t.exposed.map Exposed.token := by
  induction h with
  | string s => rfl
  | number h => simp [bareWords, exposed, OperatorToken.ofWord_numeral h]
  | boolean b => cases b <;> decide
  | null => decide
  | @call f => simp [bareWords, exposed, OperatorToken.ofWord_name]
  | @binary op left right _ _ ihl ihr =>
    cases hb : op.binding with
    | some b =>
      rw [exposed_infixed hb]
      simp only [bareWords, hb, exposedWithin, List.filterMap_append, List.filterMap_cons,
        OperatorToken.ofWord_symbol, List.map_append, List.map_cons]
      split <;> split <;> simp [ihl, ihr]
    | none => simp [bareWords, hb, exposed_logical hb, OperatorToken.ofWord_symbol]
  | @negation x _ _ ih =>
    have hn : OperatorToken.ofWord "not".toList = some .negation :=
      OperatorToken.ofWord_spelling .negation
    rw [bareWords, List.filterMap_cons, hn, exposed, ih]
    simp [Function.comp_def]

theorem operators_within {P : Term → Prop} {t : Term} (h : t.IsWritten P) (outer : Binding) :
    bareOperators (t.fragment.within outer)
      = some ((t.exposedWithin outer).map Exposed.token) := by
  have hf := finds_parenthesizedIf (p := t.binding.needsParens outer) (passed_code h)
    (finds_code h)
  rw [bareOperators, toList_fragment_within, within, hf.bareWords, exposedWithin]
  split <;> simp [operators_bareWords h]

theorem operators_code {P : Term → Prop} {t : Term} (h : t.IsWritten P) :
    bareOperators t.fragment.code = some (t.exposed.map Exposed.token) := by
  rw [bareOperators, toList_code_fragment, (finds_code h).bareWords]
  simp [operators_bareWords h]

end Term

/-- Whether an operator binds at least as tightly as this. Logical operators and those in the
operands of negations are not held to it. -/
def Exposed.FitsIn (b : Binding) (x : Exposed) : Prop :=
  x.negated = false → x.token.isLogical = false → x.token.strength.rank ≤ b.rank

namespace Term

theorem binding_lt_of_mem_exposedWithin {outer : Binding} {t : Term} {x : Exposed}
    (h : x ∈ t.exposedWithin outer) : x ∈ t.exposed ∧ t.binding < outer := by
  unfold exposedWithin at h
  split at h
  · simp at h
  · next hb => exact ⟨h, by simpa [Binding.needsParens] using hb⟩

theorem fitsIn_of_mem_exposedWithin {outer : Binding} {t : Term}
    (h : ∀ x ∈ t.exposed, x.FitsIn t.binding) : ∀ x ∈ t.exposedWithin outer, x.FitsIn outer := by
  intro x hx hn hl
  obtain ⟨hx, hlt⟩ := binding_lt_of_mem_exposedWithin hx
  exact Nat.le_trans (h x hx hn hl) (Nat.le_of_lt hlt)

theorem exposed_fitsIn : (t : Term) → ∀ x ∈ t.exposed, x.FitsIn t.binding
  | binary op left right => by
    cases hb : op.binding with
    | some b =>
      rw [exposed_infixed hb, binding_infixed hb]
      simp only [List.forall_mem_append, List.forall_mem_cons]
      refine ⟨?_, ?_, ?_⟩
      · exact fitsIn_of_mem_exposedWithin (exposed_fitsIn left)
      · intro _ _
        cases op <;> cases hb <;> decide
      · exact fitsIn_of_mem_exposedWithin (exposed_fitsIn right)
    | none =>
      rw [exposed_logical hb, List.forall_mem_singleton]
      intro _ hl
      cases op <;> simp_all [Operator.binding, Operator.kind, OperatorToken.isLogical]
  | negation operand => by
    simp only [exposed, List.forall_mem_cons, List.forall_mem_map]
    constructor
    · intro _ _
      exact Nat.le_refl _
    · intro x _ hn
      cases hn
  | string _ | number _ | boolean _ | null | event _ | call _ _ => by simp [exposed]

theorem strength_lt_of_mem_exposedWithin {outer : Binding} {t : Term} {x : Exposed}
    (h : x ∈ t.exposedWithin outer) (hn : x.negated = false) (hl : x.token.isLogical = false) :
    x.token.strength < outer := by
  obtain ⟨hx, hlt⟩ := binding_lt_of_mem_exposedWithin h
  exact Nat.lt_of_le_of_lt (t.exposed_fitsIn x hx hn hl) hlt

end Term

namespace Expr

theorem exposed_of_functionCall {e : Expr} (h : e.filled.binding = .functionCall) :
    e.filled.exposed = [] := by
  cases e with
  | constant c => cases c <;> rfl
  | binary op => cases op <;> cases h
  | negation => cases h
  | _ => rfl

theorem exposed_of_atomic {e : Expr} (h : e.filled.binding = .atomic) :
    e.filled.exposed = [] ∨ ∃ op left right, op.kind = .logical ∧ e = binary op left right
      ∧ e.filled.exposed = [{ token := .binary op }] := by
  cases e with
  | constant c => cases c <;> exact .inl rfl
  | binary op left right =>
    have hk : op.kind = .logical := by cases op <;> first | rfl | cases h
    exact .inr ⟨op, left, right, hk, rfl, Term.exposed_logical (by simp [Operator.binding, hk]) _ _⟩
  | negation => cases h
  | _ => exact .inl rfl

/-- The bare operators in the code of an expression bind at least as tightly as the code itself,
but for the logical ones and those in the operand of a negation. Next to another operator, only
operators that bind more tightly are left bare. -/
theorem bareOperators_fragment {e : Expr} (h : e.IsEventFree) :
    bareOperators (e.fragment .escaped).code = some (e.filled.exposed.map Exposed.token)
      ∧ (∀ x ∈ e.filled.exposed, x.FitsIn (e.fragment .escaped).binding)
      ∧ ((e.fragment .escaped).binding = .functionCall → e.filled.exposed = [])
      ∧ ((e.fragment .escaped).binding = .atomic → e.filled.exposed = []
        ∨ ∃ op left right, op.kind = .logical ∧ e = binary op left right
          ∧ e.filled.exposed = [{ token := .binary op }])
      ∧ ∀ outer, bareOperators ((e.fragment .escaped).within outer)
          = some ((e.filled.exposedWithin outer).map Exposed.token)
        ∧ ∀ x ∈ e.filled.exposedWithin outer, x.negated = false → x.token.isLogical = false →
          x.token.strength < outer := by
  have hw : e.filled.IsWritten fun _ => True := isWritten_filled e ⟨h, fun _ _ => trivial⟩
  rw [← fragment_filled]
  refine ⟨Term.operators_code hw, e.filled.exposed_fitsIn, exposed_of_functionCall,
    exposed_of_atomic, ?_⟩
  intro outer
  refine ⟨Term.operators_within hw outer, ?_⟩
  intro x hx
  exact Term.strength_lt_of_mem_exposedWithin hx

/-- A comparison leaves a conjunction on its left bare, and so does a negation with a sum. -/
theorem bareOperators_fragment_equals :
    let e := binary .equals (some (binary .and none none))
      (some (negation (some (binary .add none none))))
    (e.fragment .escaped).code = "(false) and (false) == not 0 + 0"
      ∧ bareOperators (e.fragment .escaped).code
        = some [.binary .and, .binary .equals, .negation, .binary .add]
      ∧ ∀ x ∈ e.filled.exposed, x.FitsIn (e.fragment .escaped).binding := by
  intro e
  have h : e.IsEventFree := by simp [e, IsEventFree, nodes, optionNodes]
  obtain ⟨hops, hfits, -⟩ := bareOperators_fragment h
  exact ⟨rfl, hops, hfits⟩

/-- Code counts as atomic although it has a bare conjunction, and as a negation although it has a
bare comparison. -/
theorem not_strength_le_binding :
    let d := binary .and (some (boolean true)) (some (boolean false))
    let e := negation (some (binary .equals (some null) (some null)))
    (d.IsEventFree ∧ (d.fragment .escaped).code = "(true) and (false)"
      ∧ bareOperators (d.fragment .escaped).code = some [.binary .and]
      ∧ ¬ (OperatorToken.binary .and).strength.rank ≤ (d.fragment .escaped).binding.rank)
    ∧ (e.IsEventFree ∧ (e.fragment .escaped).code = "not null == null"
      ∧ bareOperators (e.fragment .escaped).code = some [.negation, .binary .equals]
      ∧ ¬ (OperatorToken.binary .equals).strength.rank ≤ (e.fragment .escaped).binding.rank) := by
  intro d e
  have hd : d.IsEventFree := by simp [d, IsEventFree, nodes, optionNodes, boolean]
  have he : e.IsEventFree := by simp [e, IsEventFree, nodes, optionNodes, null]
  exact ⟨⟨hd, rfl, by decide, by decide⟩, he, rfl, by decide, by decide⟩

end Expr
end HomeScript
