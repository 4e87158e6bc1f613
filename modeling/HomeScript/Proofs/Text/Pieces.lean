import Mathlib.Data.List.Basic

/-! # Pieces of a text

A text is divided at marks into pieces that hold none, and pieces that hold none are found again
when they are joined by a mark.
-/

namespace HomeScript.Text

variable {isMark : Char → Bool} {pieces : List (List Char)}

theorem intercalate_cons_cons (mark : Char) (piece next : List Char)
    (pieces : List (List Char)) :
    [mark].intercalate (piece :: next :: pieces)
      = piece ++ mark :: [mark].intercalate (next :: pieces) := by
  rw [List.intercalate_cons_cons, List.append_assoc, List.singleton_append]

theorem not_isMark_of_mem_splitOnP {cs piece : List Char} (h : piece ∈ cs.splitOnP isMark) :
    ∀ c ∈ piece, isMark c = false := by
  induction cs generalizing piece with
  | nil =>
    rw [List.splitOnP_nil, List.mem_singleton] at h
    simp [h]
  | cons c cs ih =>
    rw [List.splitOnP_cons_eq_if_modifyHead] at h
    split at h
    · rcases List.mem_cons.1 h with rfl | h
      · simp
      · exact ih h
    · next hc =>
      obtain ⟨first, more, hsplit⟩ := List.exists_cons_of_ne_nil (List.splitOnP_ne_nil isMark cs)
      rw [hsplit, List.modifyHead_cons] at h
      rcases List.mem_cons.1 h with rfl | h
      · rw [List.forall_mem_cons]
        exact ⟨Bool.eq_false_iff.2 hc, ih (hsplit ▸ List.mem_cons_self)⟩
      · exact ih (hsplit ▸ List.mem_cons_of_mem _ h)

theorem splitOnP_intercalate {mark : Char} (hmark : isMark mark) (hne : pieces ≠ [])
    (h : ∀ piece ∈ pieces, ∀ c ∈ piece, isMark c = false) :
    ([mark].intercalate pieces).splitOnP isMark = pieces := by
  induction pieces with
  | nil => exact absurd rfl hne
  | cons piece pieces ih =>
    rw [List.forall_mem_cons] at h
    cases pieces with
    | nil =>
      rw [List.intercalate_singleton]
      exact List.splitOnP_eq_singleton h.1
    | cons next pieces =>
      rw [intercalate_cons_cons, List.splitOnP_append_cons_of_forall_mem h.1 mark hmark,
        ih (List.cons_ne_nil _ _) h.2]

theorem mem_intercalate {mark c : Char} (h : c ∈ [mark].intercalate pieces) :
    c = mark ∨ ∃ piece ∈ pieces, c ∈ piece := by
  induction pieces with
  | nil => simp at h
  | cons piece pieces ih =>
    cases pieces with
    | nil => exact .inr ⟨piece, List.mem_cons_self, by simpa using h⟩
    | cons next pieces =>
      rw [intercalate_cons_cons, List.mem_append, List.mem_cons] at h
      rcases h with h | h | h
      · exact .inr ⟨piece, List.mem_cons_self, h⟩
      · exact .inl h
      · obtain hmark | ⟨other, hother, hc⟩ := ih h
        · exact .inl hmark
        · exact .inr ⟨other, List.mem_cons_of_mem _ hother, hc⟩

theorem mem_intercalate_of_mem {piece : List Char} (mark : Char) (hpiece : piece ∈ pieces)
    {c : Char} (hc : c ∈ piece) : c ∈ [mark].intercalate pieces := by
  induction pieces with
  | nil => cases hpiece
  | cons first pieces ih =>
    cases pieces with
    | nil =>
      rw [List.mem_singleton] at hpiece
      subst hpiece
      rwa [List.intercalate_singleton]
    | cons next pieces =>
      rw [intercalate_cons_cons, List.mem_append, List.mem_cons]
      rcases List.mem_cons.1 hpiece with rfl | hpiece
      · exact .inl hc
      · exact .inr (.inr (ih hpiece))

theorem mem_of_mem_splitOn {mark : Char} {cs piece : List Char} (hpiece : piece ∈ cs.splitOn mark)
    {c : Char} (hc : c ∈ piece) : c ∈ cs := by
  have hcs : [mark].intercalate (cs.splitOn mark) = cs := List.intercalate_splitOn mark
  rw [← hcs]
  exact mem_intercalate_of_mem mark hpiece hc

theorem cons_intercalate (mark : Char) (hne : pieces ≠ []) :
    mark :: [mark].intercalate pieces = pieces.flatMap (mark :: ·) := by
  induction pieces with
  | nil => exact absurd rfl hne
  | cons piece pieces ih =>
    cases pieces with
    | nil => simp
    | cons next pieces =>
      rw [intercalate_cons_cons, ih (List.cons_ne_nil _ _)]
      rfl

end HomeScript.Text
