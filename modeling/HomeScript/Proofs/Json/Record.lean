import HomeScript.Proofs.Json.Depth

/-! # Records that are read

The parts of a record are parts of the value that it is read from, and what is read for a field is
read from one of them, unless the field has been left out.
-/

namespace HomeScript.Json
variable {α : Type} {j : Json}

theorem depth_elements {ps : List (Part j)} (h : j.elements = .ok ps) :
    ∀ p ∈ ps, p.1.depth < j.depth := by
  cases j with
  | array xs =>
    cases h
    intro p hp
    obtain ⟨x, -, rfl⟩ := List.mem_map.1 hp
    exact Nat.lt_succ_of_le (depthEach_le_iff.1 le_rfl x.1 x.2)
  | _ => cases h

theorem depth_members {ms : List (String × Part j)} (h : j.members = .ok ms) :
    ∀ m ∈ ms, m.2.1.depth < j.depth := by
  cases j with
  | object ms' =>
    cases h
    intro p hp
    obtain ⟨m, -, rfl⟩ := List.mem_map.1 hp
    exact Nat.lt_succ_of_le (depthMembers_le_iff.1 le_rfl m.1 m.2)
  | _ => cases h

theorem parts_members {fields : List String} {stage : Stage} {ms : List (String × α)}
    {r : Record α} (h : (Body.members ms).record fields stage = .ok r) : r.parts = ms := by
  unfold Body.record at h
  dsimp only at h
  split at h <;> cases h
  rfl

theorem parts_elements {fields : List String} {stage : Stage} {xs : List α} {r : Record α}
    (h : (Body.elements xs).record fields stage = .ok r) : r.parts = fields.zip xs := by
  unfold Body.record at h
  dsimp only at h
  split at h
  · cases h
    rfl
  · cases stage <;> cases h

/-- The parts that stand for the fields of a record are nested less deep than the record. -/
theorem depth_record {fields : List String} {stage : Stage} {r : Record (Part j)}
    (h : j.record fields stage = .ok r) : ∀ m ∈ r.parts, m.2.1.depth < j.depth := by
  obtain ⟨b, hb, hr⟩ := bind_eq_ok.1 h
  cases j with
  | array xs =>
    obtain ⟨ps, hps, rfl⟩ := map_eq_ok.1 hb
    rw [parts_elements hr]
    intro m hm
    exact depth_elements hps _ (List.of_mem_zip hm).2
  | object ms =>
    obtain ⟨ps, hps, rfl⟩ := map_eq_ok.1 hb
    rw [parts_members hr]
    exact depth_members hps
  | _ => cases hb

theorem depth_part {fields : List String} {stage : Stage} {r : Record (Part j)} {f : String}
    {p : Part j} (h : j.record fields stage = .ok r) (hp : r.part? f = some p) :
    p.1.depth < j.depth := by
  obtain ⟨l₁, l₂, hparts, -⟩ := List.lookup_eq_some_iff.1 hp
  exact depth_record h (f, p) (by rw [hparts]; simp)

theorem depth_record_pos {fields : List String} {stage : Stage} {r : Record (Part j)}
    (h : j.record fields stage = .ok r) : 0 < j.depth := by
  obtain ⟨b, hb, -⟩ := bind_eq_ok.1 h
  cases j with
  | array _ | object _ => exact Nat.succ_pos _
  | _ => cases hb

theorem isNull_of_record {fields : List String} {stage : Stage}
    {r : Record (Part j)} (h : j.record fields stage = .ok r) : j.isNull = false := by
  cases j with
  | null => cases h
  | _ => rfl

theorem optional_eq_ok {β : Type} {r : Record α} {f : String} {d x : β}
    {read : α → Except Fault β} (h : r.optional f d read = .ok x) :
    x = d ∨ ∃ p, r.part? f = some p ∧ read p = .ok x := by
  unfold Record.optional at h
  split at h
  · next p hp => exact .inr ⟨p, hp, h⟩
  · exact .inl (Except.ok.inj h).symm

theorem nullable_eq_ok {read : Part j → Except Fault α} {p : Part j} {x : α}
    (h : nullable read p = .ok (some x)) : read p = .ok x := by
  unfold nullable at h
  split at h
  · cases h
  · obtain ⟨y, hy, hx⟩ := map_eq_ok.1 h
    obtain rfl := Option.some.inj hx
    exact hy

theorem required_eq_ok {β : Type} {r : Record α} {f : String} {x : β}
    {read : α → Except Fault β} (h : r.required f read = .ok x) :
    ∃ p, r.part? f = some p ∧ read p = .ok x := by
  unfold Record.required at h
  split at h
  · next p hp => exact ⟨p, hp, h⟩
  · cases h

theorem exists_of_optional {r : Record (Part j)} {f : String} {read : Part j → Except Fault α}
    {x : α} (h : r.optional f none (nullable read) = .ok (some x)) :
    ∃ p : Part j, read p = .ok x := by
  rcases optional_eq_ok h with h | ⟨p, -, h⟩
  · cases h
  · exact ⟨p, nullable_eq_ok h⟩

end HomeScript.Json
