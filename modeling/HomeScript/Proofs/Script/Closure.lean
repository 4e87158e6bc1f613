import HomeScript.Proofs.Script.Scan

/-! # Closed code

Code is closed if a scan of it ends outside of everything, and if each parenthesis that closes and
each comma is met within a literal or within parentheses. Such code can be put between the commas
of a call and is one argument there. The code of every expression is closed.
-/

namespace HomeScript

/-- Whether a scan is in a literal or in parentheses. -/
def Scan.IsInside (s : Scan) : Prop :=
  s.mode ≠ .code ∨ 0 < s.depth

/-- Code that closes what it opens, and nothing else, with no comma outside of that. -/
structure IsSelfContained (cs : List Char) : Prop where
  settled : ∃ s, Scan.run {} cs = some s ∧ ¬ s.IsInside
  inside : ∀ before c after, cs = before ++ c :: after → c = ')' ∨ c = ',' →
    ∃ s, Scan.run {} before = some s ∧ s.IsInside

namespace Scan

/-! ## What a scan has seen -/

/-- The characters of the words that a scan has found, and of the word that it is in. -/
def seen (s : Scan) : List Char :=
  s.words.flatten ++ s.word

theorem seen_endWord (s : Scan) : s.endWord.seen = s.seen := by
  unfold endWord
  split
  · rfl
  · simp [seen]

/-- What has been seen is kept. -/
theorem seen_prefix_step {s t : Scan} {c : Char} (h : s.step c = some t) : s.seen <+: t.seen := by
  have hend : s.seen <+: s.endWord.seen := (seen_endWord s).symm ▸ List.prefix_rfl
  unfold step at h
  split at h
  · cases h
    exact List.prefix_rfl
  · cases h
    split
    · exact List.prefix_rfl
    · split <;> exact List.prefix_rfl
  · split at h
    · cases h
      exact hend
    split at h
    · cases h
      exact hend
    split at h
    · split at h <;> cases h
      exact List.prefix_rfl
    split at h
    · cases h
      exact List.prefix_rfl
    split at h
    · cases h
      exact hend
    · cases h
      exact ⟨[c], List.append_assoc _ _ _⟩

theorem seen_prefix_run {s t : Scan} {cs : List Char} (h : run s cs = some t) :
    s.seen <+: t.seen := by
  induction cs generalizing s with
  | nil =>
    obtain rfl : s = t := Option.some.inj h
    exact List.prefix_rfl
  | cons c cs ih =>
    rw [run_cons, Option.bind_eq_some_iff] at h
    obtain ⟨u, hu, h⟩ := h
    exact (seen_prefix_step hu).trans (ih h)

/-- A plain character that is met outside of everything belongs to a word. -/
theorem mem_seen_of_not_isInside {s t : Scan} {c : Char} {cs : List Char} (hc : isPlain c)
    (hs : ¬ s.IsInside) (h : run s (c :: cs) = some t) : c ∈ t.seen := by
  obtain ⟨hm, hd⟩ : s.mode = .code ∧ s.depth = 0 := by simpa [IsInside] using hs
  have hstep : s.step c = some { s with word := s.word ++ [c] } := by
    simp_all [step, isPlain]
  rw [run_cons, hstep, Option.bind_some] at h
  apply (seen_prefix_run h).subset
  simp [seen]

/-- Only inside parentheses can a parenthesis be closed. -/
theorem isInside_of_step_close {s t : Scan} (h : s.step ')' = some t) : s.IsInside := by
  by_contra hs
  obtain ⟨hm, hd⟩ : s.mode = .code ∧ s.depth = 0 := by simpa [IsInside] using hs
  simp [step, hm, hd] at h

/-- Where a scan finds words without a comma, the code is closed. -/
theorem Finds.isSelfContained {cs : List Char} {found : List (List Char)} (h : Finds cs found)
    (hc : ∀ w ∈ found, ',' ∉ w) : IsSelfContained cs := by
  obtain ⟨t, ht, hm, hd, hw⟩ := h []
  have hrun : run {} cs = some t := ht
  have hseen : t.seen = found.flatten := by
    rw [← seen_endWord, hw]
    simp [seen, outside]
  constructor
  · exact ⟨t, hrun, by simp [IsInside, hm, hd]⟩
  · rintro before c after rfl hcase
    rw [run_append, Option.bind_eq_some_iff] at hrun
    obtain ⟨s, hs, hafter⟩ := hrun
    refine ⟨s, hs, ?_⟩
    rcases hcase with rfl | rfl
    · rw [run_cons, Option.bind_eq_some_iff] at hafter
      obtain ⟨u, hu, -⟩ := hafter
      exact isInside_of_step_close hu
    · by_contra hinside
      -- The scan would have to put such a comma into one of the words that it finds.
      have hmem := mem_seen_of_not_isInside (by decide) hinside hafter
      rw [hseen, List.mem_flatten] at hmem
      obtain ⟨w, hw, hcomma⟩ := hmem
      exact hc w hw hcomma

end Scan

/-! ## The code of expressions -/

theorem IsNumeral.comma_not_mem {cs : List Char} (h : IsNumeral cs) : ',' ∉ cs := by
  intro hc
  exact absurd (h.all_numeral _ hc) (by decide)

namespace Term

theorem comma_not_mem_bareWords {P : Term → Prop} {t : Term} (h : t.IsWritten P) :
    ∀ w ∈ t.bareWords, ',' ∉ w := by
  induction h with
  | string s => simp [bareWords]
  | number h => simpa [bareWords] using h.comma_not_mem
  | boolean b => cases b <;> decide
  | null => decide
  | @call f => simpa [bareWords] using
      (by decide : ∀ f ∈ Builtin.all, ',' ∉ f.name.toList) f f.mem_all
  | @binary op left right _ _ ihl ihr =>
    have hop : ',' ∉ op.symbol.toList :=
      (by decide : ∀ op ∈ Operator.all, ',' ∉ op.symbol.toList) op op.mem_all
    cases hb : op.binding with
    | some b =>
      simp only [bareWords, hb, List.forall_mem_append, List.forall_mem_cons]
      refine ⟨?_, hop, ?_⟩
      · split
        · simp
        · exact ihl
      · split
        · simp
        · exact ihr
    | none => simpa [bareWords, hb] using hop
  | @negation x _ _ ih =>
    rw [bareWords, List.forall_mem_cons]
    exact ⟨by decide, ih⟩

end Term

namespace Expr

/-- The code of an expression is closed, by itself and next to an operator. -/
theorem isSelfContained_fragment {e : Expr} (h : e.IsEventFree) :
    IsSelfContained (e.fragment .escaped).code.toList
      ∧ ∀ outer, IsSelfContained ((e.fragment .escaped).within outer).toList := by
  have hw : e.filled.IsWritten fun _ => True := isWritten_filled e ⟨h, fun _ _ => trivial⟩
  have hcomma := Term.comma_not_mem_bareWords hw
  rw [← fragment_filled]
  constructor
  · rw [Term.toList_code_fragment]
    exact (Term.finds_code hw).isSelfContained hcomma
  · intro outer
    have hf := Term.finds_parenthesizedIf (p := e.filled.binding.needsParens outer)
      (Term.passed_code hw) (Term.finds_code hw)
    rw [Term.toList_fragment_within]
    apply hf.isSelfContained
    split
    · simp
    · exact hcomma

/-- A quote, a parenthesis and a comma in a text, a comparison in a sum, an argument too many. -/
theorem isSelfContained_fragment_call :
    let e := call .echo [some (string "a, (\""),
      some (binary .add none (some (binary .equals none none)))]
    (e.fragment .escaped).code = "echo(\"a, (\\\"\", 0 + (null == null))"
      ∧ e.IsEventFree ∧ IsSelfContained (e.fragment .escaped).code.toList := by
  intro e
  have h : e.IsEventFree := by
    simp [e, IsEventFree, nodes, argumentNodes, optionNodes, string]
  exact ⟨rfl, h, (isSelfContained_fragment h).1⟩

end Expr
end HomeScript
