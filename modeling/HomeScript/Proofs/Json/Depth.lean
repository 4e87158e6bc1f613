import HomeScript.Json.Record
import HomeScript.Proofs.Json.Reading

/-! # Depth of values that are read

What has been read from a text is nested at most as deep as a reader goes, and the parts of a value
are nested less deep than the value.
-/

namespace HomeScript.Json

section
variable {ε α β : Type}

theorem bind_eq_ok {x : Except ε α} {f : α → Except ε β} {y : β} :
    x >>= f = .ok y ↔ ∃ a, x = .ok a ∧ f a = .ok y := by
  cases x <;> simp [bind, Except.bind]

theorem map_eq_ok {x : Except ε α} {f : α → β} {y : β} :
    f <$> x = .ok y ↔ ∃ a, x = .ok a ∧ f a = y := by
  cases x <;> simp [Functor.map, Except.map]

theorem exists_of_isOk {x : Except ε α} (h : x.isOk) : ∃ a, x = .ok a := by
  cases x with
  | ok a => exact ⟨a, rfl⟩
  | error e => cases h

theorem exists_of_mapM {xs : List α} {ys : List β} {f : α → Except ε β}
    (h : xs.mapM f = .ok ys) : ∀ y ∈ ys, ∃ x ∈ xs, f x = .ok y := by
  induction xs generalizing ys with
  | nil =>
    obtain rfl : [] = ys := by simpa [pure, Except.pure] using h
    simp
  | cons x xs ih =>
    rw [List.mapM_cons, bind_eq_ok] at h
    obtain ⟨y, hy, h⟩ := h
    obtain ⟨ys, hys, rfl⟩ := map_eq_ok.1 h
    rw [List.forall_mem_cons]
    constructor
    · exact ⟨x, List.mem_cons_self, hy⟩
    · intro z hz
      obtain ⟨w, hw, hf⟩ := ih hys z hz
      exact ⟨w, List.mem_cons_of_mem _ hw, hf⟩

end

theorem depthEach_le_iff {js : List Json} {n : ℕ} :
    depthEach js ≤ n ↔ ∀ j ∈ js, j.depth ≤ n := by
  induction js with
  | nil => simp [depthEach]
  | cons j js ih => simp [depthEach, ih]

theorem depthMembers_le_iff {ms : List (String × Json)} {n : ℕ} :
    depthMembers ms ≤ n ↔ ∀ m ∈ ms, m.2.depth ≤ n := by
  induction ms with
  | nil => simp [depthMembers]
  | cons m ms ih => simp [depthMembers, ih]

namespace Reader

theorem mem_items {α : Type} {item : Front α} {close : Char} {bound : ℕ} {cs rest : List Char}
    {xs : List α} (h : items item close bound cs = .ok (xs, rest)) :
    ∀ x ∈ xs, ∃ cs rest, item cs = .ok (x, rest) := by
  induction bound generalizing cs xs rest with
  | zero => cases h
  | succ bound ih =>
    rw [items, bind_eq_ok] at h
    obtain ⟨⟨x, rest'⟩, hx, h⟩ := h
    dsimp only at h
    split at h
    · split at h
      · obtain ⟨⟨ys, rest''⟩, hys, h⟩ := bind_eq_ok.1 h
        cases h
        rw [List.forall_mem_cons]
        exact ⟨⟨_, _, hx⟩, ih hys⟩
      · split at h
        · cases h
          rw [List.forall_mem_singleton]
          exact ⟨_, _, hx⟩
        · cases h
    · cases h

theorem mem_container {α : Type} {item : Front α} {close : Char} {bound : ℕ}
    {cs rest : List Char} {xs : List α} (h : container item close bound cs = .ok (xs, rest)) :
    ∀ x ∈ xs, ∃ cs rest, item cs = .ok (x, rest) := by
  unfold container at h
  split at h
  · split at h
    · cases h
      simp
    · exact mem_items h
  · cases h

theorem depth_word {j j' : Json} {w cs rest : List Char} (hj : j.depth = 0)
    (h : word j w cs = .ok (j', rest)) : j'.depth = 0 := by
  induction w generalizing cs with
  | nil => cases h; exact hj
  | cons c w ih =>
    cases cs with
    | nil => cases h
    | cons d cs =>
      rw [word] at h
      split at h
      · exact ih h
      · cases h

theorem depth_number {j : Json} {cs rest : List Char} (h : number cs = .ok (j, rest)) :
    j.depth = 0 := by
  simp only [number, bind_eq_ok] at h
  obtain ⟨_, _, _, _, _, _, h⟩ := h
  have hresult {p : Prop} [Decidable p] {n : ℤ} {x : Double} {cs : List Char}
      (h : (if p then pure (integer n, cs)
        else pure (if x.isFinite then real x else unreadable, cs) : Except Fault (Taken Json))
        = .ok (j, rest)) : j.depth = 0 := by
    split at h <;> cases h
    · rfl
    · split <;> rfl
  split at h <;> exact hresult h

theorem depth_scalar {j : Json} {cs rest : List Char} (h : scalar cs = .ok (j, rest)) :
    j.depth = 0 := by
  unfold scalar at h
  split at h
  case h_4 =>
    obtain ⟨⟨s, rest'⟩, -, h⟩ := bind_eq_ok.1 h
    cases h
    cases s <;> rfl
  case h_5 =>
    split at h
    · exact depth_number h
    · cases h
  case h_6 => cases h
  all_goals exact depth_word rfl h

theorem depth_array {item : Front Json} {bound n : ℕ} {cs rest : List Char} {j : Json}
    (hitem : ∀ cs rest j, item cs = .ok (j, rest) → j.depth ≤ n)
    (h : array item bound cs = .ok (j, rest)) : j.depth ≤ n + 1 := by
  obtain ⟨⟨xs, rest'⟩, hxs, h⟩ := bind_eq_ok.1 h
  cases h
  refine Nat.succ_le_succ (depthEach_le_iff.2 ?_)
  intro x hx
  obtain ⟨cs', rest'', hx⟩ := mem_container hxs x hx
  exact hitem _ _ _ hx

theorem depth_member {item : Front Json} {n : ℕ} {cs rest : List Char} {k : String} {j : Json}
    (hitem : ∀ cs rest j, item cs = .ok (j, rest) → j.depth ≤ n)
    (h : member item cs = .ok (some (k, j), rest)) : j.depth ≤ n := by
  simp only [member, bind_eq_ok] at h
  obtain ⟨⟨k', _⟩, -, ⟨j', _⟩, hj, h⟩ := h
  cases k' with
  | none => cases h
  | some k' => cases h; exact hitem _ _ _ hj

theorem mem_of_mapM_id {α : Type} {xs : List (Option α)} {ys : List α}
    (h : xs.mapM id = some ys) : ∀ y ∈ ys, some y ∈ xs := by
  induction xs generalizing ys with
  | nil =>
    obtain rfl : [] = ys := by simpa using h
    simp
  | cons x xs ih =>
    simp only [List.mapM_cons, id_eq, Option.bind_eq_bind, Option.bind_eq_some_iff,
      Option.pure_def, Option.some.injEq] at h
    obtain ⟨y, rfl, zs, hzs, rfl⟩ := h
    rw [List.forall_mem_cons]
    constructor
    · exact List.mem_cons_self
    · intro z hz
      exact List.mem_cons_of_mem _ (ih hzs z hz)

theorem depth_object {item : Front Json} {bound n : ℕ} {cs rest : List Char} {j : Json}
    (hitem : ∀ cs rest j, item cs = .ok (j, rest) → j.depth ≤ n)
    (h : object item bound cs = .ok (j, rest)) : j.depth ≤ n + 1 := by
  obtain ⟨⟨ms, rest'⟩, hms, h⟩ := bind_eq_ok.1 h
  cases h
  cases hm : ms.mapM id with
  | none => simp [Json.depth]
  | some ms' =>
    refine Nat.succ_le_succ (depthMembers_le_iff.2 ?_)
    intro m hm'
    obtain ⟨cs', rest'', hx⟩ := mem_container hms _ (mem_of_mapM_id hm m hm')
    exact depth_member hitem hx

theorem depth_passed {bound n : ℕ} {c : Container} {cs rest : List Char} {j : Json}
    (h : passed bound c cs = .ok (j, rest)) : j.depth ≤ n := by
  unfold passed at h
  cases hp : passOver bound [c] .first cs with
  | error e => simp [hp, Except.map] at h
  | ok rest' =>
    rw [hp] at h
    cases h
    simp [Json.depth]

theorem depth_valueWith {readArray readObject : Front Json} {n : ℕ} {cs rest : List Char}
    {j : Json} (harray : ∀ cs rest j, readArray cs = .ok (j, rest) → j.depth ≤ n)
    (hobject : ∀ cs rest j, readObject cs = .ok (j, rest) → j.depth ≤ n)
    (h : valueWith readArray readObject cs = .ok (j, rest)) : j.depth ≤ n := by
  unfold valueWith at h
  split at h
  · exact harray _ _ _ h
  · exact hobject _ _ _ h
  · exact (depth_scalar h).le.trans (Nat.zero_le n)

/-- A reader that follows so many nested containers gives a value that is no deeper. -/
theorem depth_value {bound depth : ℕ} {cs rest : List Char} {j : Json}
    (h : value bound depth cs = .ok (j, rest)) : j.depth ≤ depth := by
  induction depth generalizing cs rest j with
  | zero =>
    refine depth_valueWith ?_ ?_ h
    · intro _ _ _ hj
      exact depth_passed hj
    · intro _ _ _ hj
      exact depth_passed hj
  | succ depth ih =>
    refine depth_valueWith ?_ ?_ h
    · intro _ _ _ hj
      exact depth_array (fun _ _ _ => ih) hj
    · intro _ _ _ hj
      exact depth_object (fun _ _ _ => ih) hj

end Reader

theorem depth_read {text : String} {j : Json} (h : read text = .ok j) :
    j.depth ≤ Reader.maxDepth := by
  obtain ⟨⟨j', rest⟩, hfirst, h⟩ := bind_eq_ok.1 h
  dsimp only at h
  split at h
  · cases h
    exact Reader.depth_value hfirst
  · cases h

end HomeScript.Json
