import Mathlib.Data.List.Nodup
import HomeScript.Proofs.Script.Term

/-! # Reading code

The code of a term, in front of whatever may follow it, determines the term. Outside parentheses
a term is a chain of operands with infix operators between them, and every operand begins and ends
where it can be seen.
-/

namespace HomeScript

namespace Operator

theorem binding_of_arithmetic {op : Operator} (h : op.kind = .arithmetic) :
    op.binding = some .arithmetic := by
  simp [binding, h]

theorem binding_of_comparison {op : Operator} (h : op.kind = .comparison) :
    op.binding = some .relational := by
  simp [binding, h]

theorem binding_of_logical {op : Operator} (h : op.kind = .logical) : op.binding = none := by
  simp [binding, h]

theorem symbol_injective {op op' : Operator} (h : op.symbol = op'.symbol) : op = op' :=
  List.inj_on_of_nodup_map (l := all) (by decide) op.mem_all op'.mem_all h

theorem symbol_append_inj {op op' : Operator} {k k' : List Char}
    (h : op.symbol.toList ++ ' ' :: k = op'.symbol.toList ++ ' ' :: k') : op = op' ∧ k = k' := by
  have hs (op : Operator) : ∀ c ∈ op.symbol.toList, (c != ' ') = true :=
    List.all_eq_true.1
      ((by decide : ∀ op ∈ all, op.symbol.toList.all fun c => c != ' ') op op.mem_all)
  obtain ⟨h, hk⟩ := run_append_inj (hs op) (hs op') (by simp) (by simp) h
  exact ⟨symbol_injective (String.toList_inj.1 h), (List.cons.inj hk).2⟩

end Operator

namespace Term

/-- A term that can be told from its code: no bare infix operation follows a negation. -/
abbrev IsReadable : Term → Prop :=
  IsWritten fun t => t.isInfix = false

/-! ## What may follow -/

/-- What follows a whole expression: its end, an argument, or the end of a group. -/
inductive Ends : List Char → Prop
  | nil : Ends []
  | close (k : List Char) : Ends (')' :: k)
  | comma (k : List Char) : Ends (',' :: k)

/-- What follows an operand: the end of the expression, or an infix operator. -/
inductive Follows : List Char → Prop
  | ends {k : List Char} (h : Ends k) : Follows k
  | operator {op : Operator} (h : op.binding.isSome) (k : List Char) :
      Follows (' ' :: op.symbol.toList ++ ' ' :: k)

theorem not_follows_logical {op : Operator} (h : op.binding = none) (k : List Char) :
    ¬ Follows (' ' :: op.symbol.toList ++ ' ' :: k) := by
  generalize hcs : ' ' :: op.symbol.toList ++ ' ' :: k = cs
  rintro (⟨⟨⟩⟩ | ⟨hop, k'⟩)
  · simp at hcs
  · simp at hcs
  · simp at hcs
  · obtain ⟨rfl, -⟩ := Operator.symbol_append_inj (List.cons.inj hcs).2
    simp [h] at hop

theorem Follows.head {k : List Char} (h : Follows k) :
    ∀ c ∈ k.head?, c = ' ' ∨ c = ')' ∨ c = ',' := by
  rcases h with ⟨⟨⟩⟩ | _ <;> simp

/-! ## How terms begin -/

inductive Lead where
  | quote
  | numeral
  | group
  | word
  deriving DecidableEq

def lead : Term → Lead
  | string _ => .quote
  | number _ => .numeral
  | binary _ _ _ => .group
  | _ => .word

def isWordChar (c : Char) : Bool :=
  c.isAlpha || c == '_'

def leadOf (c : Char) : Option Lead :=
  if c = '\"' then some .quote
  else if c = '(' then some .group
  else if isNumeralChar c then some .numeral
  else if isWordChar c then some .word
  else none

theorem leadOf_numeral {c : Char} (h : isNumeralChar c) : leadOf c = some .numeral := by
  have hq : c ≠ '\"' := by rintro rfl; simp [isNumeralChar] at h
  have hp : c ≠ '(' := by rintro rfl; simp [isNumeralChar] at h
  simp [leadOf, hq, hp, h]

/-- The code of a term as an operand that may stand next to any infix operator. -/
def operand (t : Term) : List Char :=
  parenthesizedIf t.isInfix t.code

theorem operand_of_not_isInfix {t : Term} (h : t.isInfix = false) : t.operand = t.code := by
  simp [operand, h, parenthesizedIf]

/-- What a term of two operands begins with in parentheses: the whole of an infix operation, or the
left operand of a logical one. -/
inductive Groups : Term → Term → List Char → Prop
  | ofInfix {t : Term} (h : t.isInfix) : Groups t t []
  | logical {op : Operator} (h : op.binding = none) (left right : Term) :
      Groups (.binary op left right) left
        (' ' :: op.symbol.toList ++ ' ' :: '(' :: right.code ++ [')'])

theorem Groups.operand {t x : Term} {cs : List Char} (h : Groups t x cs) :
    t.operand = '(' :: x.code ++ ')' :: cs := by
  cases h with
  | ofInfix h => simp [Term.operand, parenthesizedIf, h]
  | logical h =>
    rw [operand_of_not_isInfix (by simp [isInfix, h]), code_logical h]
    simp

theorem exists_groups (op : Operator) (left right : Term) :
    ∃ x cs, Groups (.binary op left right) x cs := by
  cases h : op.binding with
  | some b => exact ⟨_, _, .ofInfix (by simp [isInfix, h])⟩
  | none => exact ⟨_, _, .logical h left right⟩

theorem lead_operand {t : Term} (h : t.IsReadable) :
    ∃ c cs, t.operand = c :: cs ∧ leadOf c = some t.lead := by
  cases h with
  | string s => exact ⟨'\"', _, Quoting.toList_quote _ _, rfl⟩
  | @number text h =>
    obtain ⟨d, hd, -⟩ := h.exists_digit
    cases htext : text.toList with
    | nil => simp [htext] at hd
    | cons c cs => exact ⟨c, cs, htext, leadOf_numeral (h.all_numeral c (by simp [htext]))⟩
  | boolean b => cases b <;> exact ⟨_, _, rfl, rfl⟩
  | null => exact ⟨_, _, rfl, rfl⟩
  | @call f arguments _ => cases f <;> exact ⟨_, _, rfl, rfl⟩
  | @binary op left right =>
    obtain ⟨x, cs, hg⟩ := exists_groups op left right
    exact ⟨'(', _, hg.operand, rfl⟩
  | negation => exact ⟨_, _, rfl, rfl⟩

theorem lead_eq {t u : Term} {k k' : List Char} (ht : t.IsReadable) (hu : u.IsReadable)
    (h : t.operand ++ k = u.operand ++ k') : t.lead = u.lead := by
  obtain ⟨c, cs, htc, hc⟩ := lead_operand ht
  obtain ⟨d, ds, hud, hd⟩ := lead_operand hu
  rw [htc, hud] at h
  obtain ⟨rfl, -⟩ := List.cons.inj h
  exact Option.some.inj (hc.symm.trans hd)

/-! ## Words -/

inductive Word where
  | boolean (b : Bool)
  | null
  | not
  | name (f : Builtin)
  deriving DecidableEq

namespace Word

def all : List Word :=
  [boolean true, boolean false, null, not] ++ Builtin.all.map name

def spelling : Word → List Char
  | boolean b => (if b then "true" else "false").toList
  | null => "null".toList
  | not => "not".toList
  | name f => f.name.toList

theorem mem_all (w : Word) : w ∈ all := by
  cases w with
  | boolean b => cases b <;> decide
  | name f => exact List.mem_append_right _ (List.mem_map_of_mem f.mem_all)
  | _ => decide

theorem spelling_injective {v w : Word} (h : v.spelling = w.spelling) : v = w :=
  List.inj_on_of_nodup_map (l := all) (by decide) v.mem_all w.mem_all h

theorem isWordChar_of_mem_spelling {w : Word} {c : Char} (h : c ∈ w.spelling) : isWordChar c :=
  List.all_eq_true.1 ((by decide : ∀ w ∈ all, w.spelling.all isWordChar) w w.mem_all) c h

end Word

/-- A term that begins with a word, and the code after the word. -/
inductive Begins : Term → Word → List Char → Prop
  | boolean (b : Bool) : Begins (.boolean b) (.boolean b) []
  | null : Begins .null .null []
  | call (f : Builtin) (arguments : List Term) :
      Begins (.call f arguments) (.name f)
        ('(' :: [',', ' '].intercalate (codes arguments) ++ [')'])
  | negation (operand : Term) : Begins (.negation operand) .not (' ' :: operand.code)

theorem IsReadable.begins {t : Term} (h : t.IsReadable) (hl : t.lead = .word) :
    ∃ w cs, Begins t w cs := by
  cases h with
  | boolean b => exact ⟨_, _, .boolean b⟩
  | null => exact ⟨_, _, .null⟩
  | call => exact ⟨_, _, .call _ _⟩
  | negation => exact ⟨_, _, .negation _⟩
  | _ => simp [lead] at hl

theorem Begins.code {t : Term} {w : Word} {cs : List Char} (h : Begins t w cs) :
    t.code = w.spelling ++ cs := by
  cases h <;> simp [Term.code, Word.spelling]

theorem Begins.head {t : Term} {w : Word} {cs k : List Char} (h : Begins t w cs)
    (hk : Follows k) : ∀ c ∈ (cs ++ k).head?, ¬ isWordChar c := by
  have hd : ∀ c ∈ k.head?, ¬ isWordChar c := by
    intro c hc
    rcases hk.head c hc with rfl | rfl | rfl <;> decide
  cases h with
  | boolean | null => exact hd
  | call | negation => simp [isWordChar]

theorem Begins.inj {t u : Term} {w v : Word} {cs ds k k' : List Char}
    (ht : Begins t w cs) (hu : Begins u v ds) (hk : Follows k) (hk' : Follows k')
    (h : t.code ++ k = u.code ++ k') : w = v ∧ cs ++ k = ds ++ k' := by
  rw [ht.code, hu.code, List.append_assoc, List.append_assoc] at h
  obtain ⟨hw, hcs⟩ := run_append_inj (fun _ => Word.isWordChar_of_mem_spelling)
    (fun _ => Word.isWordChar_of_mem_spelling) (ht.head hk) (hu.head hk') h
  exact ⟨Word.spelling_injective hw, hcs⟩

/-! ## Chains of operands -/

abbrev Link := Operator × Term

def linkCode (l : Link) : List Char :=
  ' ' :: l.1.symbol.toList ++ ' ' :: l.2.operand

def chainCode (c : Term × List Link) : List Char :=
  c.1.operand ++ c.2.flatMap linkCode

/-- Arithmetic stands bare within comparisons, so it gives them two operands instead of one. -/
def arithmeticChain : Term → Term × List Link
  | binary op left right =>
    if op.kind = .arithmetic then (left, [(op, right)]) else (binary op left right, [])
  | t => (t, [])

def chain : Term → Term × List Link
  | binary op left right =>
    if op.kind = .comparison then
      (left.arithmeticChain.1,
        left.arithmeticChain.2 ++ (op, right.arithmeticChain.1) :: right.arithmeticChain.2)
    else (binary op left right).arithmeticChain
  | t => (t, [])

theorem within_arithmetic (t : Term) : t.within .arithmetic = t.operand := by
  suffices t.binding.needsParens .arithmetic = t.isInfix by rw [within, operand, this]
  cases t with
  | binary op => cases op <;> rfl
  | _ => rfl

theorem chainCode_single (t : Term) : chainCode (t, []) = t.operand := by
  simp [chainCode]

theorem code_arithmetic {op : Operator} (h : op.kind = .arithmetic) (left right : Term) :
    (binary op left right).code = chainCode (left, [(op, right)]) := by
  rw [code_infixed (Operator.binding_of_arithmetic h), within_arithmetic, within_arithmetic]
  simp [chainCode, linkCode]

theorem within_relational (t : Term) : t.within .relational = chainCode t.arithmeticChain := by
  cases t with
  | binary op left right =>
    cases h : op.kind with
    | arithmetic =>
      have hb := Operator.binding_of_arithmetic h
      rw [arithmeticChain, if_pos h, ← code_arithmetic h, within, binding_infixed hb]
      rfl
    | comparison =>
      have hb := Operator.binding_of_comparison h
      rw [arithmeticChain, if_neg (by simp [h]), chainCode_single, within, binding_infixed hb,
        operand, isInfix, hb]
      rfl
    | logical =>
      have hb := Operator.binding_of_logical h
      rw [arithmeticChain, if_neg (by simp [h]), chainCode_single, within, binding_logical hb,
        operand, isInfix, hb]
      rfl
  | _ => simp [arithmeticChain, chainCode_single, within, operand, isInfix, binding]; rfl

theorem code_eq_chainCode (t : Term) : t.code = chainCode t.chain := by
  cases t with
  | binary op left right =>
    cases h : op.kind with
    | arithmetic => rw [chain, if_neg (by simp [h]), arithmeticChain, if_pos h, code_arithmetic h]
    | comparison =>
      have hb := Operator.binding_of_comparison h
      rw [chain, if_pos h, code_infixed hb, within_relational, within_relational]
      simp [chainCode, linkCode]
    | logical =>
      have hb := Operator.binding_of_logical h
      rw [chain, if_neg (by simp [h]), arithmeticChain, if_neg (by simp [h]), chainCode_single,
        operand_of_not_isInfix (by simp [isInfix, hb])]
  | _ => exact (operand_of_not_isInfix rfl).symm.trans (chainCode_single _).symm

/-! ## A chain determines its term -/

def isArithmeticLink (l : Link) : Bool :=
  l.1.kind == .arithmetic

theorem isArithmeticLink_of_mem {t : Term} {l : Link} (h : l ∈ t.arithmeticChain.2) :
    isArithmeticLink l := by
  unfold arithmeticChain at h
  split at h
  · split at h <;> simp_all [isArithmeticLink]
  · simp at h

theorem arithmeticChain_injective {t u : Term} (h : t.arithmeticChain = u.arithmeticChain) :
    t = u := by
  unfold arithmeticChain at h
  split at h <;> split at h <;> grind

theorem chain_comparison {op : Operator} (h : op.kind = .comparison) (left right : Term) :
    (binary op left right).chain = (left.arithmeticChain.1,
      left.arithmeticChain.2 ++ (op, right.arithmeticChain.1) :: right.arithmeticChain.2) := by
  rw [chain, if_pos h]

theorem comparison_or_arithmeticChain (t : Term) :
    (∃ op left right, op.kind = .comparison ∧ t = binary op left right)
      ∨ t.chain = t.arithmeticChain := by
  cases t with
  | binary op left right =>
    by_cases h : op.kind = .comparison
    · exact .inl ⟨op, left, right, h, rfl⟩
    · exact .inr (by rw [chain, if_neg h])
  | _ => exact .inr rfl

theorem chain_comparison_ne {op : Operator} (h : op.kind = .comparison) {left right u : Term} :
    (binary op left right).chain ≠ u.arithmeticChain := by
  rw [chain_comparison h]
  intro he
  have hm : (op, right.arithmeticChain.1) ∈ u.arithmeticChain.2 := by simp [← he]
  simpa [isArithmeticLink, h] using isArithmeticLink_of_mem hm

theorem chain_injective {t u : Term} (h : t.chain = u.chain) : t = u := by
  rcases comparison_or_arithmeticChain t with ⟨op, l, r, hop, rfl⟩ | ht <;>
    rcases comparison_or_arithmeticChain u with ⟨op', l', r', hop', rfl⟩ | hu
  · rw [chain_comparison hop, chain_comparison hop', Prod.mk.injEq] at h
    obtain ⟨hfirst, hlinks⟩ := h
    obtain ⟨hl, hr⟩ := run_append_inj (p := isArithmeticLink)
      (fun _ => isArithmeticLink_of_mem) (fun _ => isArithmeticLink_of_mem)
      (by simp [isArithmeticLink, hop]) (by simp [isArithmeticLink, hop']) hlinks
    obtain ⟨hlink, hrest⟩ := List.cons.inj hr
    obtain ⟨rfl, hsecond⟩ := Prod.mk.inj hlink
    obtain rfl := arithmeticChain_injective (Prod.ext hfirst hl)
    obtain rfl := arithmeticChain_injective (Prod.ext hsecond hrest)
    rfl
  · exact absurd (h.trans hu) (chain_comparison_ne hop)
  · exact absurd (h.symm.trans ht) (chain_comparison_ne hop')
  · exact arithmeticChain_injective (ht.symm.trans (h.trans hu))

end Term
end HomeScript
