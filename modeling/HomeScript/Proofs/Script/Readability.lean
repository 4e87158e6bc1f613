import HomeScript.Proofs.Script.Reading

/-! # Unique readability

Code in front of an end determines the term it was written for, by induction on the term. Hence
two expressions have the same code only if they say the same.
-/

namespace HomeScript

namespace Term

/-- The term, as an operand, and what follows it can be told from the text they give together. -/
def OperandInj (t : Term) : Prop :=
  ∀ ⦃u : Term⦄ ⦃k k' : List Char⦄, u.IsReadable → Follows k → Follows k' →
    t.operand ++ k = u.operand ++ k' → t = u ∧ k = k'

/-- The same of the term as a whole expression. -/
def CodeInj (t : Term) : Prop :=
  ∀ ⦃u : Term⦄ ⦃k k' : List Char⦄, u.IsReadable → Ends k → Ends k' →
    t.code ++ k = u.code ++ k' → t = u ∧ k = k'

/-- The operands of a chain, and the operators between them. -/
structure ChainAll (P : Term → Prop) (c : Term × List Link) : Prop where
  first : P c.1
  rest : ∀ l ∈ c.2, P l.2
  isInfix : ∀ l ∈ c.2, l.1.binding.isSome

theorem ChainAll.single {P : Term → Prop} {t : Term} (h : P t) : ChainAll P (t, []) :=
  ⟨h, by simp, by simp⟩

theorem ChainAll.arithmeticChain {P : Term → Prop} {t : Term} (h : P t)
    (hc : ChainAll P t.chain) : ChainAll P t.arithmeticChain := by
  rcases comparison_or_arithmeticChain t with ⟨op, l, r, hop, rfl⟩ | ht
  · rw [Term.arithmeticChain, if_neg (by simp [hop])]
    exact .single h
  · exact ht ▸ hc

theorem ChainAll.binary {P : Term → Prop} {op : Operator} {left right : Term} (hl : P left)
    (hr : P right) (hlc : ChainAll P left.chain) (hrc : ChainAll P right.chain)
    (h : op.binding = none → P (.binary op left right)) :
    ChainAll P (Term.binary op left right).chain := by
  cases hop : op.kind with
  | arithmetic =>
    rw [chain, if_neg (by simp [hop]), Term.arithmeticChain, if_pos hop]
    exact ⟨hl, by simpa using hr, by simp [Operator.binding_of_arithmetic hop]⟩
  | comparison =>
    have hla := hlc.arithmeticChain hl
    have hra := hrc.arithmeticChain hr
    rw [chain_comparison hop]
    refine ⟨hla.first, ?_, ?_⟩
    · rw [List.forall_mem_append, List.forall_mem_cons]
      exact ⟨hla.rest, hra.first, hra.rest⟩
    · rw [List.forall_mem_append, List.forall_mem_cons]
      exact ⟨hla.isInfix, by rw [Operator.binding_of_comparison hop]; rfl, hra.isInfix⟩
  | logical =>
    rw [chain, if_neg (by simp [hop]), Term.arithmeticChain, if_neg (by simp [hop])]
    exact .single (h (Operator.binding_of_logical hop))

theorem IsReadable.chain {t : Term} (h : t.IsReadable) : ChainAll IsReadable t.chain := by
  induction h with
  | binary hl hr ihl ihr => exact .binary hl hr ihl ihr fun _ => .binary hl hr
  | string s => exact .single (.string s)
  | number h => exact .single (.number h)
  | boolean b => exact .single (.boolean b)
  | null => exact .single .null
  | call h => exact .single (.call h)
  | negation h hi => exact .single (.negation h hi)

theorem follows_links {ls : List Link} {k : List Char} (h : ∀ l ∈ ls, l.1.binding.isSome)
    (hk : Ends k) : Follows (ls.flatMap linkCode ++ k) := by
  cases ls with
  | nil => exact .ends hk
  | cons l ls =>
    have := Follows.operator (h l List.mem_cons_self)
      (l.2.operand ++ (ls.flatMap linkCode ++ k))
    simpa [linkCode] using this

theorem links_append_inj {ls ms : List Link} {k k' : List Char}
    (hl : ∀ l ∈ ls, OperandInj l.2) (hls : ∀ l ∈ ls, l.1.binding.isSome)
    (hm : ∀ m ∈ ms, IsReadable m.2) (hms : ∀ m ∈ ms, m.1.binding.isSome)
    (hk : Ends k) (hk' : Ends k')
    (h : ls.flatMap linkCode ++ k = ms.flatMap linkCode ++ k') : ls = ms ∧ k = k' := by
  induction ls generalizing ms with
  | nil =>
    cases ms with
    | nil => exact ⟨rfl, h⟩
    | cons m ms => cases hk <;> simp [linkCode] at h
  | cons l ls ih =>
    cases ms with
    | nil => cases hk' <;> simp [linkCode] at h
    | cons m ms =>
      simp only [List.forall_mem_cons] at hl hls hm hms
      simp only [List.flatMap_cons, linkCode, List.cons_append, List.append_assoc] at h
      obtain ⟨hop, h⟩ := Operator.symbol_append_inj (List.cons.inj h).2
      obtain ⟨ht, h⟩ := hl.1 hm.1 (follows_links hls.2 hk) (follows_links hms.2 hk') h
      obtain ⟨rfl, rfl⟩ := ih hl.2 hls.2 hm.2 hms.2 h
      exact ⟨by rw [Prod.ext hop ht], rfl⟩

theorem CodeInj.of_chain {t : Term} (h : ChainAll OperandInj t.chain) : CodeInj t := by
  intro u k k' hu hk hk' he
  rw [code_eq_chainCode, code_eq_chainCode, chainCode, chainCode, List.append_assoc,
    List.append_assoc] at he
  have hc := hu.chain
  obtain ⟨hfirst, he⟩ := h.first hc.first (follows_links h.isInfix hk)
    (follows_links hc.isInfix hk') he
  obtain ⟨hlinks, rfl⟩ := links_append_inj h.rest h.isInfix hc.rest hc.isInfix hk hk' he
  exact ⟨chain_injective (Prod.ext hfirst hlinks), rfl⟩

/-! ## Operands, by how they begin -/

theorem operandInj_string (s : String) : OperandInj (.string s) := by
  intro u k k' hu _ _ h
  have hl := lead_eq (.string s) hu h
  cases hu <;> simp only [lead, reduceCtorEq] at hl
  obtain ⟨rfl, rfl⟩ := Quoting.quote_append_inj h
  exact ⟨rfl, rfl⟩

theorem head_not_isNumeralChar {k : List Char} (hk : Follows k) :
    ∀ c ∈ k.head?, ¬ isNumeralChar c := by
  intro c hc
  rcases hk.head c hc with rfl | rfl | rfl <;> decide

theorem operandInj_number {text : String} (ht : IsNumeral text.toList) :
    OperandInj (.number text) := by
  intro u k k' hu hk hk' h
  have hl := lead_eq (.number ht) hu h
  cases hu <;> simp only [lead, reduceCtorEq] at hl
  rename_i text' ht'
  obtain ⟨htext, rfl⟩ := run_append_inj ht.all_numeral ht'.all_numeral
    (head_not_isNumeralChar hk) (head_not_isNumeralChar hk') h
  exact ⟨by rw [String.toList_inj.1 htext], rfl⟩

theorem Groups.isReadable {t x : Term} {cs : List Char} (h : Groups t x cs) (ht : t.IsReadable) :
    x.IsReadable := by
  cases h with
  | ofInfix => exact ht
  | logical => cases ht; assumption

theorem Groups.rest_cases {op : Operator} {left right x : Term} {cs : List Char}
    (h : Groups (binary op left right) x cs) :
    (op.binding.isSome ∧ x = binary op left right ∧ cs = []) ∨ (op.binding = none ∧ x = left ∧
      cs = ' ' :: op.symbol.toList ++ ' ' :: '(' :: right.code ++ [')']) := by
  cases h with
  | ofInfix h => exact .inl ⟨h, rfl, rfl⟩
  | logical h => exact .inr ⟨h, rfl, rfl⟩

theorem operandInj_binary {op : Operator} {left right : Term}
    (ht : (binary op left right).IsReadable) (hl : CodeInj left) (hr : CodeInj right)
    (hw : op.binding.isSome → CodeInj (binary op left right)) :
    OperandInj (binary op left right) := by
  intro u k k' hu hk hk' h
  have hlead := lead_eq ht hu h
  obtain ⟨op', left', right', rfl⟩ : ∃ op l r, u = binary op l r := by
    cases u <;> simp_all [lead]
  obtain ⟨x, cs, hg⟩ := exists_groups op left right
  obtain ⟨y, ds, hg'⟩ := exists_groups op' left' right'
  have hx : CodeInj x := by
    cases hg with
    | ofInfix h => exact hw h
    | logical => exact hl
  rw [hg.operand, hg'.operand] at h
  simp only [List.cons_append, List.append_assoc, List.cons.injEq, true_and] at h
  obtain ⟨hxy, h⟩ := hx (hg'.isReadable hu) (.close _) (.close _) h
  have hrest : cs ++ k = ds ++ k' := (List.cons.inj h).2
  -- Only a logical operation goes on after its group, and with what follows no operand.
  rcases hg.rest_cases with ⟨-, rfl, rfl⟩ | ⟨hop, rfl, rfl⟩ <;>
    rcases hg'.rest_cases with ⟨-, rfl, rfl⟩ | ⟨hop', rfl, rfl⟩
  · exact ⟨hxy, hrest⟩
  · refine absurd hk ?_
    rw [show k = _ from hrest]
    simpa using not_follows_logical hop' _
  · refine absurd hk' ?_
    rw [show k' = _ from hrest.symm]
    simpa using not_follows_logical hop _
  · simp only [List.cons_append, List.append_assoc, List.cons.injEq, true_and] at hrest
    obtain ⟨rfl, hright⟩ := Operator.symbol_append_inj hrest
    obtain ⟨rfl, hend⟩ :=
      hr (by cases hu; assumption) (.close _) (.close _) (List.cons.inj hright).2
    exact ⟨by rw [hxy], (List.cons.inj hend).2⟩

theorem ends_arguments (ts : List Term) (k : List Char) :
    Ends (ts.flatMap argumentCode ++ ')' :: k) := by
  cases ts with
  | nil => exact .close k
  | cons t ts => exact .comma _

theorem moreArguments_append_inj {ts us : List Term} {k k' : List Char}
    (ht : ∀ t ∈ ts, CodeInj t) (hu : ∀ u ∈ us, IsReadable u)
    (h : ts.flatMap argumentCode ++ ')' :: k = us.flatMap argumentCode ++ ')' :: k') :
    ts = us ∧ k = k' := by
  induction ts generalizing us with
  | nil =>
    cases us with
    | nil => exact ⟨rfl, (List.cons.inj h).2⟩
    | cons u us => simp [argumentCode] at h
  | cons t ts ih =>
    cases us with
    | nil => simp [argumentCode] at h
    | cons u us =>
      simp only [List.forall_mem_cons] at ht hu
      simp only [List.flatMap_cons, argumentCode, List.cons_append, List.append_assoc,
        List.cons.injEq, true_and] at h
      obtain ⟨rfl, hrest⟩ := ht.1 hu.1 (ends_arguments ts k) (ends_arguments us k') h
      obtain ⟨rfl, rfl⟩ := ih ht.2 hu.2 hrest
      exact ⟨rfl, rfl⟩

theorem code_append_ne_close {t : Term} (h : t.IsReadable) (k k' : List Char) :
    t.code ++ k ≠ ')' :: k' := by
  obtain ⟨c, cs, hcs, hc⟩ := lead_operand h.chain.first
  rw [code_eq_chainCode, chainCode, hcs]
  intro he
  obtain ⟨rfl, -⟩ := List.cons.inj he
  simp [leadOf, isNumeralChar, isWordChar] at hc

theorem arguments_append_inj {ts us : List Term} {k k' : List Char}
    (ht : ∀ t ∈ ts, CodeInj t) (htr : ∀ t ∈ ts, IsReadable t) (hu : ∀ u ∈ us, IsReadable u)
    (h : [',', ' '].intercalate (codes ts) ++ ')' :: k
      = [',', ' '].intercalate (codes us) ++ ')' :: k') : ts = us ∧ k = k' := by
  cases ts with
  | nil =>
    cases us with
    | nil => exact ⟨rfl, (List.cons.inj h).2⟩
    | cons u us =>
      rw [intercalate_codes, List.append_assoc] at h
      exact absurd h.symm (code_append_ne_close (hu u List.mem_cons_self) _ _)
  | cons t ts =>
    cases us with
    | nil =>
      rw [intercalate_codes, List.append_assoc] at h
      exact absurd h (code_append_ne_close (htr t List.mem_cons_self) _ _)
    | cons u us =>
      simp only [List.forall_mem_cons] at ht hu
      rw [intercalate_codes, intercalate_codes, List.append_assoc, List.append_assoc] at h
      obtain ⟨rfl, hrest⟩ := ht.1 hu.1 (ends_arguments ts k) (ends_arguments us k') h
      obtain ⟨rfl, rfl⟩ := moreArguments_append_inj ht.2 hu.2 hrest
      exact ⟨rfl, rfl⟩

theorem operandInj_word {t : Term} (ht : t.IsReadable) (hl : t.lead = .word)
    (ha : ∀ f ts, t = call f ts → ∀ a ∈ ts, CodeInj a)
    (hn : ∀ x, t = negation x → OperandInj x) : OperandInj t := by
  intro u k k' hu hk hk' h
  have hlu : u.lead = .word := (lead_eq ht hu h).symm.trans hl
  obtain ⟨w, cs, hb⟩ := ht.begins hl
  obtain ⟨v, ds, hb'⟩ := hu.begins hlu
  have hinfix : t.isInfix = false := by cases hb <;> rfl
  have hinfix' : u.isInfix = false := by cases hb' <;> rfl
  rw [operand_of_not_isInfix hinfix, operand_of_not_isInfix hinfix'] at h
  obtain ⟨rfl, hrest⟩ := hb.inj hb' hk hk' h
  cases hb with
  | boolean b => cases hb'; exact ⟨rfl, hrest⟩
  | null => cases hb'; exact ⟨rfl, hrest⟩
  | call f ts =>
    cases hb' with
    | call _ us =>
      cases ht with | call htr =>
      cases hu with | call hur =>
      simp only [List.cons_append, List.append_assoc, List.nil_append] at hrest
      obtain ⟨rfl, rfl⟩ := arguments_append_inj (ha f ts rfl) htr hur (List.cons.inj hrest).2
      exact ⟨rfl, rfl⟩
  | negation x =>
    cases hb' with
    | negation y =>
      cases ht with | negation hx hxi =>
      cases hu with | negation hy hyi =>
      have hxy : x.operand ++ k = y.operand ++ k' := by
        rw [operand_of_not_isInfix hxi, operand_of_not_isInfix hyi]
        exact (List.cons.inj hrest).2
      obtain ⟨rfl, rfl⟩ := hn x rfl hy hk hk' hxy
      exact ⟨rfl, rfl⟩

/-- The invariant of the induction: a term can be told as an operand, and so can those it is a
chain of. -/
structure Determined (t : Term) : Prop where
  operand : OperandInj t
  chain : ChainAll OperandInj t.chain

theorem IsReadable.determined {t : Term} (h : t.IsReadable) : Determined t := by
  have bare {t : Term} (ht : OperandInj t) (hc : t.chain = (t, [])) : Determined t :=
    ⟨ht, hc ▸ .single ht⟩
  induction h with
  | string s => exact bare (operandInj_string s) rfl
  | number h => exact bare (operandInj_number h) rfl
  | boolean b => exact bare (operandInj_word (.boolean b) rfl (by simp) (by simp)) rfl
  | null => exact bare (operandInj_word .null rfl (by simp) (by simp)) rfl
  | @call f arguments h ih =>
    refine bare (operandInj_word (.call h) rfl ?_ (by simp)) rfl
    rintro _ _ ⟨⟩ a ha
    exact CodeInj.of_chain (ih a ha).chain
  | @binary op left right hl hr ihl ihr =>
    have hchain (h : op.binding = none → OperandInj (.binary op left right)) :=
      ChainAll.binary ihl.operand ihr.operand ihl.chain ihr.chain h
    have ht := operandInj_binary (.binary hl hr) (.of_chain ihl.chain) (.of_chain ihr.chain)
      fun hop => .of_chain (hchain fun hn => by simp [hn] at hop)
    exact ⟨ht, hchain fun _ => ht⟩
  | @negation x h hi ih =>
    refine bare (operandInj_word (.negation h hi) rfl (by simp) ?_) rfl
    rintro _ ⟨⟩
    exact ih.operand

theorem code_injective {t u : Term} (ht : t.IsReadable) (hu : u.IsReadable)
    (h : t.code = u.code) : t = u :=
  (CodeInj.of_chain ht.determined.chain hu .nil .nil (congrArg (· ++ []) h)).1

end Term

namespace Expr

theorem isInfix_filler (slot : Slot) : slot.filler.isInfix = false := by
  cases slot <;> rfl

theorem isInfix_filled {e : Expr}
    (h : ∀ op left right, e = binary op left right → op.kind = .logical) :
    e.filled.isInfix = false := by
  cases e with
  | binary op left right => simp [filled, Term.isInfix, Operator.binding_of_logical (h _ _ _ rfl)]
  | constant c => cases c <;> rfl
  | _ => rfl

theorem isReadable_filled {e : Expr} (h : e.IsEventFree) (hn : e.NegatesNoInfix) :
    e.filled.IsReadable := by
  refine isWritten_filled e ⟨h, ?_⟩
  rintro (_ | x) hx
  · exact isInfix_filler .boolean
  · refine isInfix_filled ?_
    rintro op left right rfl
    exact hn op left right hx

/-- Expressions without events whose negations are not followed by an infix operation have the same
code exactly if they say the same, and then they bind alike. -/
theorem code_eq_iff_filled_eq {d e : Expr} (hd : d.IsEventFree) (he : e.IsEventFree)
    (hdn : d.NegatesNoInfix) (hen : e.NegatesNoInfix) :
    ((d.fragment .escaped).code = (e.fragment .escaped).code ↔ d.filled = e.filled)
      ∧ (d.filled = e.filled → (d.fragment .escaped).binding = (e.fragment .escaped).binding) := by
  rw [← fragment_filled d, ← fragment_filled e]
  refine ⟨⟨?_, ?_⟩, ?_⟩
  · intro h
    apply Term.code_injective (isReadable_filled hd hdn) (isReadable_filled he hen)
    simpa using congrArg String.toList h
  · intro h
    rw [h]
  · intro h
    rw [h]

/-- A device and a missing operand say no more than the text and the default that stand there. -/
theorem code_eq_iff_filled_eq_negation :
    let d := negation (some (binary .and (some (device ⟨"hass", "lamp"⟩)) none))
    let e := negation (some (binary .and (some (string "hass@lamp")) (some (boolean false))))
    d ≠ e ∧ d.filled = e.filled ∧ (d.fragment .escaped).code = (e.fragment .escaped).code
      ∧ (d.fragment .escaped).binding = (e.fragment .escaped).binding := by
  intro d e
  have hd : d.IsEventFree := by simp [d, IsEventFree, nodes, optionNodes]
  have he : e.IsEventFree := by simp [e, IsEventFree, nodes, optionNodes, string, boolean]
  have hdn : d.NegatesNoInfix := by
    intro op left right h
    obtain ⟨rfl, -, -⟩ := by simpa [d, nodes, optionNodes] using h
    rfl
  have hen : e.NegatesNoInfix := by
    intro op left right h
    obtain ⟨rfl, -, -⟩ := by simpa [e, nodes, optionNodes, string, boolean] using h
    rfl
  have hf : d.filled = e.filled := by
    simp [d, e, filled, filledSlot, Operator.kind, OperatorKind.slot, Slot.filler, string, boolean,
      constantTerm, Handle.text]
  obtain ⟨hcode, hbinding⟩ := code_eq_iff_filled_eq hd he hdn hen
  exact ⟨by simp [d, e, string], hf, hcode.2 hf, hbinding hf⟩

end Expr
end HomeScript
