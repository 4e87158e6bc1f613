import Mathlib.Data.List.TakeWhile
import HomeScript.Text.Blank

/-! # Texts without blanks around them

Taking the blanks away at both ends leaves the one stretch of a text that has nothing but blanks
around it and none at its ends.
-/

namespace HomeScript.Text

/-- A text without the blanks around it. -/
structure IsTrimmed (cs core : List Char) : Prop where
  around : ∃ before after, (∀ c ∈ before, isBlank c) ∧ (∀ c ∈ after, isBlank c)
    ∧ cs = before ++ (core ++ after)
  first : ∀ c ∈ core.head?, isBlank c = false
  last : ∀ c ∈ core.getLast?, isBlank c = false

theorem dropWhile_isBlank_eq_self {cs : List Char} (h : ∀ c ∈ cs.head?, isBlank c = false) :
    cs.dropWhile isBlank = cs := by
  cases cs with
  | nil => rfl
  | cons c cs => rw [List.dropWhile_cons_of_neg (by simp [h c rfl])]

theorem eq_false_of_head?_dropWhile (p : Char → Bool) (cs : List Char) :
    ∀ c ∈ (cs.dropWhile p).head?, p c = false := by
  intro c hc
  have h := List.head?_dropWhile_not p cs
  rw [Option.mem_def.1 hc] at h
  exact h

theorem exists_eq_trimEnd_append (cs : List Char) :
    ∃ after, (∀ c ∈ after, isBlank c) ∧ cs = trimEnd cs ++ after := by
  refine ⟨(cs.reverse.takeWhile isBlank).reverse, ?_, ?_⟩
  · intro c hc
    exact List.mem_takeWhile_imp (List.mem_reverse.1 hc)
  · rw [trimEnd, ← List.reverse_append, List.takeWhile_append_dropWhile, List.reverse_reverse]

theorem isTrimmed_trim (cs : List Char) : IsTrimmed cs (trim cs) := by
  obtain ⟨after, hafter, heq⟩ := exists_eq_trimEnd_append (cs.dropWhile isBlank)
  constructor
  · refine ⟨cs.takeWhile isBlank, after, fun c hc => List.mem_takeWhile_imp hc, hafter, ?_⟩
    rw [trim, ← heq, List.takeWhile_append_dropWhile]
  · intro c hc
    apply eq_false_of_head?_dropWhile isBlank cs
    rw [heq, List.head?_append]
    exact Option.mem_def.2 (by rw [← trim, Option.mem_def.1 hc]; rfl)
  · intro c hc
    rw [trim, trimEnd, List.getLast?_reverse] at hc
    exact eq_false_of_head?_dropWhile isBlank _ c hc

theorem IsTrimmed.trim_eq {cs core : List Char} (h : IsTrimmed cs core) : trim cs = core := by
  obtain ⟨before, after, hbefore, hafter, rfl⟩ := h.around
  rw [trim, List.dropWhile_append_of_pos hbefore]
  cases core with
  | nil =>
    rw [List.nil_append, List.dropWhile_eq_nil_iff.2 hafter]
    rfl
  | cons c core =>
    have hfirst : ∀ d ∈ (c :: core ++ after).head?, isBlank d = false := h.first
    have hlast : ∀ d ∈ (c :: core).reverse.head?, isBlank d = false := by
      rw [List.head?_reverse]
      exact h.last
    rw [dropWhile_isBlank_eq_self hfirst, trimEnd, List.reverse_append,
      List.dropWhile_append_of_pos (by simpa using hafter), dropWhile_isBlank_eq_self hlast,
      List.reverse_reverse]

theorem isTrimmed_self {cs : List Char} (h : ∀ c ∈ cs, isBlank c = false) : IsTrimmed cs cs where
  around := ⟨[], [], by simp, by simp, by simp⟩
  first c hc := h c (List.mem_of_mem_head? hc)
  last c hc := h c (List.mem_of_mem_getLast? hc)

theorem isBlank_of_isDigit {c : Char} (h : c.isDigit) : isBlank c = false := by
  have hc := Char.isDigit_iff_toNat.1 h
  have hzero : '0'.toNat = 48 := rfl
  have hnine : '9'.toNat = 57 := rfl
  simp only [isBlank, List.any_cons, List.any_nil, Bool.or_false, Bool.or_eq_false_iff,
    Bool.and_eq_false_iff, decide_eq_false_iff_not]
  omega

theorem isTrimmed_iff {cs core : List Char} : IsTrimmed cs core ↔ trim cs = core := by
  constructor
  · exact IsTrimmed.trim_eq
  · rintro rfl
    exact isTrimmed_trim cs

end HomeScript.Text
