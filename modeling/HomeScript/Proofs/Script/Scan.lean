import HomeScript.Proofs.Script.Term

/-! # Scanning code

A scan goes over code from left to right, passes over literals and what stands in parentheses, and
keeps the words outside of them. The code of a term leaves a scan where it found it.
-/

namespace HomeScript

namespace Scan

inductive Mode where
  | code
  | literal
  /-- Behind a backslash of a literal. -/
  | escape
  deriving DecidableEq

end Scan

/-- Where a scan is, the words it has found outside literals and parentheses, and the word there
that it is in. -/
structure Scan where
  mode : Scan.Mode := .code
  depth : Nat := 0
  words : List (List Char) := []
  word : List Char := []
  deriving DecidableEq

namespace Scan

def endWord (s : Scan) : Scan :=
  if s.word.isEmpty then s else { s with words := s.words ++ [s.word], word := [] }

/-- Blanks, literals and groups divide words. A parenthesis that closes nothing ends the scan. -/
def step (s : Scan) (c : Char) : Option Scan :=
  match s.mode with
  | .escape => some { s with mode := .literal }
  | .literal =>
    some (if c = '\\' then { s with mode := .escape }
      else if c = '\"' then { s with mode := .code } else s)
  | .code =>
    if c = '\"' then some { s.endWord with mode := .literal }
    else if c = '(' then some { s.endWord with depth := s.depth + 1 }
    else if c = ')' then if s.depth = 0 then none else some { s with depth := s.depth - 1 }
    else if 0 < s.depth then some s
    else if c = ' ' then some s.endWord
    else some { s with word := s.word ++ [c] }

def run (s : Scan) (cs : List Char) : Option Scan :=
  cs.foldlM step s

/-- Outside of everything, between words. -/
def outside (words : List (List Char)) : Scan :=
  { words }

/-- In parentheses, with the words before them. -/
def within (depth : Nat) (words : List (List Char)) : Scan :=
  { depth := depth + 1, words }

end Scan

/-- The words of code outside its literals and parentheses, if all of them are closed. -/
def bareWords (cs : List Char) : Option (List (List Char)) :=
  match Scan.run {} cs with
  | some s => if s.mode = .code ∧ s.depth = 0 then some s.endWord.words else none
  | none => none

namespace Scan

@[simp] theorem run_nil (s : Scan) : run s [] = some s := rfl

@[simp] theorem run_cons (s : Scan) (c : Char) (cs : List Char) :
    run s (c :: cs) = (s.step c).bind (run · cs) := by
  simp [run, List.foldlM_cons]

theorem run_append (s : Scan) (cs ds : List Char) :
    run s (cs ++ ds) = (run s cs).bind (run · ds) := by
  simp [run, List.foldlM_append]

/-! ## What a scan passes over -/

/-- Code that a scan inside parentheses passes over. -/
def Passed (cs : List Char) : Prop :=
  ∀ depth words, run (within depth words) cs = some (within depth words)

/-- Code in which a scan outside of everything finds these words. -/
def Finds (cs : List Char) (found : List (List Char)) : Prop :=
  ∀ words, ∃ s, run (outside words) cs = some s ∧ s.mode = .code ∧ s.depth = 0
    ∧ s.endWord = outside (words ++ found)

theorem Finds.bareWords {cs : List Char} {found : List (List Char)} (h : Finds cs found) :
    bareWords cs = some found := by
  obtain ⟨s, hs, hm, hd, hw⟩ := h []
  have hrun : run {} cs = some s := hs
  simp [HomeScript.bareWords, hrun, hm, hd, hw, outside]

theorem Passed.append {cs ds : List Char} (hc : Passed cs) (hd : Passed ds) :
    Passed (cs ++ ds) := by
  intro depth words
  rw [run_append, hc]
  exact hd depth words

theorem Finds.append_blank {cs ds : List Char} {v w : List (List Char)} (hc : Finds cs v)
    (hd : Finds ds w) : Finds (cs ++ ' ' :: ds) (v ++ w) := by
  intro words
  obtain ⟨s, hs, hm, hdepth, hw⟩ := hc words
  obtain ⟨s', hs', h'⟩ := hd (words ++ v)
  refine ⟨s', ?_, by simpa using h'⟩
  simpa [run_append, hs, step, hm, hdepth, hw] using hs'

theorem Passed.group {cs : List Char} (h : Passed cs) : Passed ('(' :: cs ++ [')']) := by
  intro depth words
  have hcs := h (depth + 1) words
  simp only [within] at hcs
  simp [run_append, step, within, endWord, hcs]

theorem Finds.group {cs : List Char} (h : Passed cs) : Finds ('(' :: cs ++ [')']) [] := by
  intro words
  have hcs := h 0 words
  simp only [within] at hcs
  refine ⟨outside words, ?_, rfl, rfl, by simp [outside, endWord]⟩
  simp [run_append, step, outside, endWord, hcs]

/-- A character that divides nothing outside parentheses. -/
def isPlain (c : Char) : Bool :=
  c != '\"' && c != '(' && c != ')' && c != ' '

theorem Passed.blank : Passed [' '] := by
  intro depth words
  simp [step, within]

theorem Passed.plain {cs : List Char} (h : cs.all isPlain) : Passed cs := by
  intro depth words
  induction cs with
  | nil => rfl
  | cons c cs ih =>
    rw [List.all_cons, Bool.and_eq_true] at h
    obtain ⟨hc, hcs⟩ := h
    have hstep : (within depth words).step c = some (within depth words) := by
      simp_all [step, within, isPlain]
    rw [run_cons, hstep, Option.bind_some, ih hcs]

theorem run_plain {cs : List Char} (h : cs.all isPlain) (words : List (List Char))
    (word : List Char) :
    run { words, word } cs = some { words, word := word ++ cs } := by
  induction cs generalizing word with
  | nil => simp
  | cons c cs ih =>
    rw [List.all_cons, Bool.and_eq_true] at h
    obtain ⟨hc, hcs⟩ := h
    have hstep : step { words, word } c = some { words, word := word ++ [c] } := by
      simp_all [step, isPlain]
    rw [run_cons, hstep, Option.bind_some, ih hcs, List.append_assoc, List.singleton_append]

theorem Finds.word {cs : List Char} (h : cs.all isPlain) (hne : cs ≠ []) :
    Finds cs [cs] := by
  intro words
  refine ⟨_, run_plain h words [], rfl, rfl, ?_⟩
  simp [endWord, hne, outside]

theorem Finds.append_group {name cs : List Char} (h : name.all isPlain) (hne : name ≠ [])
    (hcs : Passed cs) : Finds (name ++ '(' :: cs ++ [')']) [name] := by
  intro words
  have hin := hcs 0 (words ++ [name])
  simp only [within] at hin
  refine ⟨outside (words ++ [name]), ?_, rfl, rfl, by simp [outside, endWord]⟩
  have hname := run_plain h words []
  simp only [List.nil_append] at hname
  simp [run_append, outside, hname, step, endWord, hne, hin]

theorem run_content (s : Scan) (hs : s.mode = .literal) (cs : List Char) :
    run s (Quoting.escaped.content cs ++ ['\"']) = some { s with mode := .code } := by
  induction cs with
  | nil => simp [Quoting.content, step, hs]
  | cons c cs ih =>
    have hc : run s (Quoting.escapeChar c) = some s := by
      unfold Quoting.escapeChar
      split <;> simp_all [step] <;> simp [← hs]
    simpa [Quoting.content, run_append, hc] using ih

theorem Passed.quote (s : String) : Passed (Quoting.escaped.quote s).toList := by
  intro depth words
  have h := run_content { within depth words with mode := .literal } rfl s.toList
  simpa [step, within, endWord] using h

theorem Finds.quote (s : String) : Finds (Quoting.escaped.quote s).toList [] := by
  intro words
  have h := run_content { outside words with mode := .literal } rfl s.toList
  refine ⟨outside words, ?_, rfl, rfl, by simp [outside, endWord]⟩
  simpa [step, outside, endWord] using h

end Scan

/-! ## The code of terms -/

theorem Scan.isPlain_of_isNumeralChar {c : Char} (h : isNumeralChar c) : isPlain c := by
  by_contra hp
  have hc : c = '\"' ∨ c = '(' ∨ c = ')' ∨ c = ' ' := by
    simp only [isPlain, bne_iff_ne, ne_eq, Bool.and_eq_true] at hp
    tauto
  rcases hc with rfl | rfl | rfl | rfl <;> simp [isNumeralChar] at h

theorem IsNumeral.isPlain {cs : List Char} (h : IsNumeral cs) : cs.all Scan.isPlain := by
  rw [List.all_eq_true]
  intro c hc
  exact Scan.isPlain_of_isNumeralChar (h.all_numeral c hc)

theorem IsNumeral.ne_nil {cs : List Char} (h : IsNumeral cs) : cs ≠ [] := by
  rintro rfl
  simpa using h.exists_digit

namespace Term
open Scan

theorem isPlain_name (f : Builtin) : f.name.toList.all isPlain :=
  (by decide : ∀ f ∈ Builtin.all, f.name.toList.all isPlain) f f.mem_all

theorem isPlain_symbol (op : Operator) : op.symbol.toList.all isPlain :=
  (by decide : ∀ op ∈ Operator.all, op.symbol.toList.all isPlain) op op.mem_all

/-- The words of a term that stand outside its literals and parentheses. -/
def bareWords : Term → List (List Char)
  | number text => [text.toList]
  | boolean b => [(if b then "true" else "false").toList]
  | null => ["null".toList]
  | call f _ => [f.name.toList]
  | binary op left right =>
    match op.binding with
    | some b =>
      (if left.binding.needsParens b then [] else left.bareWords) ++ op.symbol.toList
        :: (if right.binding.needsParens b then [] else right.bareWords)
    | none => [op.symbol.toList]
  | negation operand => "not".toList :: operand.bareWords
  | _ => []

theorem code_logical_groups {op : Operator} (h : op.binding = none) (left right : Term) :
    (binary op left right).code = ('(' :: left.code ++ [')']) ++ ' ' :: op.symbol.toList
      ++ ' ' :: ('(' :: right.code ++ [')']) := by
  simp [code_logical h]

theorem passed_parenthesizedIf {p : Bool} {cs : List Char} (h : Passed cs) :
    Passed (parenthesizedIf p cs) := by
  cases p
  · exact h
  · exact h.group

theorem finds_parenthesizedIf {p : Bool} {cs : List Char} {found : List (List Char)}
    (h : Passed cs) (hf : Finds cs found) :
    Finds (parenthesizedIf p cs) (if p then [] else found) := by
  cases p
  · exact hf
  · exact .group h

theorem passed_arguments {ts : List Term} (h : ∀ t ∈ ts, Passed t.code) :
    Passed ([',', ' '].intercalate (codes ts)) := by
  cases ts with
  | nil => exact .plain (by simp [codes])
  | cons t ts =>
    simp only [List.forall_mem_cons] at h
    rw [intercalate_codes]
    refine h.1.append ?_
    induction ts with
    | nil => exact .plain (by simp)
    | cons u ts ih =>
      simp only [List.forall_mem_cons] at h
      have hcomma : Passed ([','] ++ [' ']) := .append (.plain (by decide)) .blank
      simpa [argumentCode] using (hcomma.append h.2.1).append (ih ⟨h.1, h.2.2⟩)

theorem passed_code {P : Term → Prop} {t : Term} (h : t.IsWritten P) : Passed t.code := by
  induction h with
  | string s => exact .quote s
  | number h => exact .plain h.isPlain
  | boolean b => cases b <;> exact .plain (by decide)
  | null => exact .plain (by decide)
  | @call f ts _ ih =>
    have hname : Passed f.name.toList := .plain (isPlain_name f)
    simpa [code] using hname.append (passed_arguments ih).group
  | @binary op left right _ _ ihl ihr =>
    have hop : Passed (' ' :: op.symbol.toList) :=
      Passed.blank.append (.plain (isPlain_symbol op))
    cases hb : op.binding with
    | some b =>
      rw [code_infixed hb]
      exact ((passed_parenthesizedIf ihl).append hop).append
        (Passed.blank.append (passed_parenthesizedIf ihr))
    | none =>
      rw [code_logical_groups hb]
      exact (ihl.group.append hop).append (Passed.blank.append ihr.group)
  | @negation x _ _ ih =>
    have hnot : Passed "not".toList := .plain (by decide)
    exact hnot.append (Passed.blank.append ih)

/-- A scan of the code of a term finds the bare words of the term, and all parentheses and literals
closed. -/
theorem finds_code {P : Term → Prop} {t : Term} (h : t.IsWritten P) :
    Finds t.code t.bareWords := by
  induction h with
  | string s => exact .quote s
  | number h => exact .word h.isPlain h.ne_nil
  | boolean b => cases b <;> exact .word (by decide) (by decide)
  | null => exact .word (by decide) (by decide)
  | @call f ts h _ =>
    have hargs := passed_arguments fun t ht => passed_code (h t ht)
    refine .append_group (isPlain_name f) ?_ hargs
    exact (by decide : ∀ f ∈ Builtin.all, f.name.toList ≠ []) f f.mem_all
  | @binary op left right hl hr ihl ihr =>
    have hop : Finds op.symbol.toList [op.symbol.toList] := .word (isPlain_symbol op)
      ((by decide : ∀ op ∈ Operator.all, op.symbol.toList ≠ []) op op.mem_all)
    cases hb : op.binding with
    | some b =>
      have hleft : Finds (left.within b) _ := finds_parenthesizedIf (passed_code hl) ihl
      have hright : Finds (right.within b) _ := finds_parenthesizedIf (passed_code hr) ihr
      rw [code_infixed hb]
      simpa [bareWords, hb] using (hleft.append_blank hop).append_blank hright
    | none =>
      rw [code_logical_groups hb]
      simpa [bareWords, hb] using
        ((Finds.group (passed_code hl)).append_blank hop).append_blank (.group (passed_code hr))
  | @negation x _ _ ih =>
    have hnot : Finds "not".toList ["not".toList] := .word (by decide) (by decide)
    simpa [code, bareWords] using hnot.append_blank ih

end Term
end HomeScript
