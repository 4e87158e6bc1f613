import Mathlib.Data.Set.Card
import HomeScript.Automation.Registry

/-! # Who holds a name

A registry is used by a sequence of calls. Who holds a name afterwards can be told from the calls
that took effect: an owner holds the name of its last claim, unless it has released it. That no two
names have one owner is kept by every call.
-/

namespace HomeScript.Registry

inductive Call where
  | claim (name owner : String)
  | release (owner : String)
  deriving DecidableEq

def Call.owner : Call → String
  | claim _ owner => owner
  | release owner => owner

/-- A claim may be refused, a release never is. -/
def takesEffect (r : Registry) : Call → Bool
  | .claim name owner => (r.claim name owner).isOk
  | .release _ => true

/-- The registry after a call, which is the same one if the call was refused. -/
def perform (r : Registry) : Call → Registry
  | .claim name owner =>
    match r.claim name owner with
    | .ok claimed => claimed
    | .error _ => r
  | .release owner => r.release owner

def run (calls : List Call) : Registry :=
  calls.foldl perform empty

/-- The calls that take effect when they are made in order. -/
def effective (r : Registry) : List Call → List Call
  | [] => []
  | c :: rest => (if r.takesEffect c then [c] else []) ++ effective (r.perform c) rest

/-- The last call by which an owner changed what it holds. -/
def lastCall (calls : List Call) (owner : String) : Option Call :=
  ((empty.effective calls).filter fun c => c.owner = owner).getLast?

/-! ## One call -/

/-- Neither a name nor an owner stands twice. -/
structure IsOneToOne (r : Registry) : Prop where
  names : (r.entries.map Prod.fst).Nodup
  owners : (r.entries.map Prod.snd).Nodup

/-- A claim is of a free name, of a name that its owner holds, or of one that another holds. -/
theorem claim_cases (r : Registry) (name owner : String) :
    (r.ownerOf name = none
        ∧ r.claim name owner = .ok ⟨(name, owner) :: (r.release owner).entries⟩)
      ∨ (r.ownerOf name = some owner ∧ r.claim name owner = .ok r)
      ∨ ∃ current, current ≠ owner ∧ r.ownerOf name = some current
        ∧ r.claim name owner = .error ⟨name, current⟩ := by
  cases h : r.ownerOf name with
  | none => simp [claim, h]
  | some current =>
    by_cases hc : current = owner
    · subst hc
      simp [claim, h]
    · simp [claim, h, hc]

theorem takesEffect_claim_iff {r : Registry} {name owner : String} :
    r.takesEffect (.claim name owner)
      ↔ r.ownerOf name = none ∨ r.ownerOf name = some owner := by
  rcases r.claim_cases name owner with ⟨h, hc⟩ | ⟨h, hc⟩ | ⟨current, hne, h, hc⟩ <;>
    simp_all [takesEffect, Except.isOk, Except.toBool]

theorem claim_eq_error_iff {r : Registry} {name owner : String} {e : DuplicateName} :
    r.claim name owner = .error e
      ↔ e.name = name ∧ r.ownerOf name = some e.owner ∧ e.owner ≠ owner := by
  rcases r.claim_cases name owner with ⟨h, hc⟩ | ⟨h, hc⟩ | ⟨current, hne, h, hc⟩
  · simp [h, hc]
  · simp [h, hc, eq_comm]
  · obtain ⟨n, o⟩ := e
    simp only [h, hc, Except.error.injEq, DuplicateName.mk.injEq, Option.some.injEq]
    constructor
    · rintro ⟨rfl, rfl⟩
      exact ⟨rfl, rfl, hne⟩
    · rintro ⟨rfl, rfl, -⟩
      exact ⟨rfl, rfl⟩

theorem perform_of_refused {r : Registry} {c : Call} (h : r.takesEffect c = false) :
    r.perform c = r := by
  cases c with
  | release owner => cases h
  | claim name owner =>
    rcases r.claim_cases name owner with ⟨-, hc⟩ | ⟨-, hc⟩ | ⟨current, -, -, hc⟩ <;>
      simp_all [takesEffect, perform, Except.isOk, Except.toBool]

namespace IsOneToOne
variable {r : Registry} (h : r.IsOneToOne)
include h

theorem ownerOf_eq_some_iff {name owner : String} :
    r.ownerOf name = some owner ↔ (name, owner) ∈ r.entries := by
  constructor
  · intro ho
    obtain ⟨before, after, hr, -⟩ := List.lookup_eq_some_iff.1 ho
    simp [hr]
  · intro hm
    cases ho : r.ownerOf name with
    | none =>
      have hne := List.lookup_eq_none_iff.1 ho _ hm
      simp at hne
    | some current =>
      obtain ⟨before, after, hr, -⟩ := List.lookup_eq_some_iff.1 ho
      have hc : (name, current) ∈ r.entries := by simp [hr]
      obtain ⟨-, rfl⟩ := Prod.mk.inj (List.inj_on_of_nodup_map h.names hm hc rfl)
      rfl

theorem name_eq {m n owner : String} (hm : r.ownerOf m = some owner)
    (hn : r.ownerOf n = some owner) : m = n := by
  rw [h.ownerOf_eq_some_iff] at hm hn
  exact (Prod.mk.inj (List.inj_on_of_nodup_map h.owners hm hn rfl)).1

theorem release (owner : String) : (r.release owner).IsOneToOne where
  names := h.names.sublist (List.filter_sublist.map _)
  owners := h.owners.sublist (List.filter_sublist.map _)

theorem claim_free {name : String} (hn : r.ownerOf name = none) (owner : String) :
    IsOneToOne ⟨(name, owner) :: (r.release owner).entries⟩ where
  names := by
    rw [List.map_cons, List.nodup_cons]
    refine ⟨?_, (h.release owner).names⟩
    intro hmem
    obtain ⟨⟨n, o⟩, he, rfl⟩ := List.mem_map.1 hmem
    have ho : r.ownerOf n = some o := h.ownerOf_eq_some_iff.2 (List.mem_filter.1 he).1
    simp [ho] at hn
  owners := by
    rw [List.map_cons, List.nodup_cons]
    refine ⟨?_, (h.release owner).owners⟩
    intro hmem
    obtain ⟨⟨n, o⟩, he, rfl⟩ := List.mem_map.1 hmem
    simpa using (List.mem_filter.1 he).2

theorem perform (c : Call) : (r.perform c).IsOneToOne := by
  cases c with
  | release owner => exact h.release owner
  | claim name owner =>
    rcases r.claim_cases name owner with ⟨hn, hc⟩ | ⟨-, hc⟩ | ⟨current, -, -, hc⟩
    · simpa only [Registry.perform, hc] using h.claim_free hn owner
    · simpa only [Registry.perform, hc] using h
    · simpa only [Registry.perform, hc] using h

/-- A call that takes effect decides what its owner holds, and nothing else. -/
theorem ownerOf_perform_iff {c : Call} (hc : r.takesEffect c) {name owner : String} :
    (r.perform c).ownerOf name = some owner
      ↔ if owner = c.owner then c = .claim name owner else r.ownerOf name = some owner := by
  rw [(h.perform c).ownerOf_eq_some_iff]
  cases c with
  | release o =>
    have hmem : (name, owner) ∈ (r.perform (.release o)).entries
        ↔ (name, owner) ∈ r.entries ∧ owner ≠ o := by
      simp [Registry.perform, Registry.release]
    rw [hmem, h.ownerOf_eq_some_iff]
    by_cases ho : owner = o <;> simp [Call.owner, ho]
  | claim n o =>
    rcases r.claim_cases n o with ⟨-, hn⟩ | ⟨hn, hr⟩ | ⟨current, -, -, hn⟩
    · have hmem : (name, owner) ∈ (r.perform (.claim n o)).entries
          ↔ (name = n ∧ owner = o) ∨ ((name, owner) ∈ r.entries ∧ owner ≠ o) := by
        simp [Registry.perform, hn, Registry.release]
      rw [hmem, h.ownerOf_eq_some_iff]
      by_cases ho : owner = o
      · simp [Call.owner, ho, eq_comm]
      · simp [Call.owner, ho]
    · -- The claim changes nothing, and yet it says what its owner holds: that is one name only.
      simp only [Registry.perform, hr, ← h.ownerOf_eq_some_iff]
      by_cases ho : owner = o
      · subst ho
        simp only [Call.owner, if_true, Call.claim.injEq, and_true]
        constructor
        · intro hname
          exact h.name_eq hn hname
        · rintro rfl
          exact hn
      · simp [Call.owner, ho]
    · simp [takesEffect, hn, Except.isOk, Except.toBool] at hc

theorem encard_owners : {owner | ∃ name, r.ownerOf name = some owner}.encard = r.size := by
  have howners : {owner | ∃ name, r.ownerOf name = some owner}
      = ((r.entries.map Prod.snd).toFinset : Set String) := by
    ext owner
    simp [h.ownerOf_eq_some_iff]
  rw [howners, Set.encard_coe_eq_coe_finsetCard, List.toFinset_card_of_nodup h.owners,
    List.length_map, size]

end IsOneToOne

/-! ## Runs -/

theorem run_append (calls : List Call) (c : Call) :
    run (calls ++ [c]) = (run calls).perform c := by
  simp [run]

theorem effective_append (r : Registry) (calls more : List Call) :
    r.effective (calls ++ more)
      = r.effective calls ++ (calls.foldl perform r).effective more := by
  induction calls generalizing r with
  | nil => rfl
  | cons c calls ih => simp [effective, ih]

theorem isOneToOne_run (calls : List Call) : (run calls).IsOneToOne := by
  induction calls using List.reverseRecOn with
  | nil => exact ⟨List.nodup_nil, List.nodup_nil⟩
  | append_singleton calls c ih =>
    rw [run_append]
    exact ih.perform c

theorem lastCall_append_refused {calls : List Call} {c : Call}
    (h : (run calls).takesEffect c = false) (owner : String) :
    lastCall (calls ++ [c]) owner = lastCall calls owner := by
  rw [run] at h
  simp [lastCall, effective_append, effective, h]

theorem lastCall_append {calls : List Call} {c : Call} (h : (run calls).takesEffect c)
    (owner : String) :
    lastCall (calls ++ [c]) owner = if owner = c.owner then some c else lastCall calls owner := by
  rw [run] at h
  by_cases ho : owner = c.owner
  · simp [lastCall, effective_append, effective, h, ho]
  · simp [lastCall, effective_append, effective, h, ho, Ne.symm ho]

theorem ownerOf_run_iff (calls : List Call) (name owner : String) :
    (run calls).ownerOf name = some owner ↔ lastCall calls owner = some (.claim name owner) := by
  induction calls using List.reverseRecOn with
  | nil => simp [run, empty, ownerOf, lastCall, effective]
  | append_singleton calls c ih =>
    rw [run_append]
    cases hc : (run calls).takesEffect c with
    | false => rw [perform_of_refused hc, lastCall_append_refused hc, ih]
    | true =>
      rw [(isOneToOne_run calls).ownerOf_perform_iff hc, lastCall_append hc, ih]
      split <;> simp

/-- After any calls, the last one that took effect for an owner says what it holds; a claim is
refused only for a name that another owner holds, and then nothing changes; and no owner holds two
names. -/
theorem ownership_run (calls : List Call) :
    (∀ name owner, (run calls).ownerOf name = some owner
        ↔ lastCall calls owner = some (.claim name owner))
      ∧ (∀ name owner, (∃ r, (run calls).claim name owner = .ok r)
        ↔ (run calls).ownerOf name = none ∨ (run calls).ownerOf name = some owner)
      ∧ (∀ name owner e, (run calls).claim name owner = .error e
        ↔ e.name = name ∧ (run calls).ownerOf name = some e.owner ∧ e.owner ≠ owner)
      ∧ (∀ name owner e, (run calls).claim name owner = .error e →
        run (calls ++ [.claim name owner]) = run calls)
      ∧ (∀ m n owner, (run calls).ownerOf m = some owner → (run calls).ownerOf n = some owner →
        m = n)
      ∧ {owner | ∃ name, (run calls).ownerOf name = some owner}.encard = (run calls).size := by
  have hr := isOneToOne_run calls
  refine ⟨ownerOf_run_iff calls, ?_, fun _ _ _ => claim_eq_error_iff, ?_, fun _ _ _ => hr.name_eq,
    hr.encard_owners⟩
  · intro name owner
    rw [← takesEffect_claim_iff, takesEffect]
    cases (run calls).claim name owner <;> simp [Except.isOk, Except.toBool]
  · intro name owner e he
    rw [run_append]
    exact perform_of_refused (by simp [takesEffect, he, Except.isOk, Except.toBool])

/-- A name passes to another owner once its holder has taken a new one. -/
theorem ownership_run_renamed :
    let calls : List Call := [.claim "Morning" "a", .claim "Morning" "b", .claim "Evening" "a",
      .claim "Morning" "b", .claim "Evening" "b"]
    lastCall calls "b" = some (.claim "Morning" "b")
      ∧ (run calls).ownerOf "Morning" = some "b"
      ∧ (run calls).claim "Evening" "b" = .error ⟨"Evening", "a"⟩
      ∧ run (calls ++ [.claim "Evening" "b"]) = run calls := by
  intro calls
  have hlast : lastCall calls "b" = some (.claim "Morning" "b") := by decide
  have hevening : (run calls).ownerOf "Evening" = some "a" := by decide
  obtain ⟨howner, -, herror, hrefused, -, -⟩ := ownership_run calls
  have he := (herror "Evening" "b" ⟨"Evening", "a"⟩).2 ⟨rfl, hevening, by decide⟩
  exact ⟨hlast, (howner "Morning" "b").2 hlast, he, hrefused _ _ _ he⟩

end HomeScript.Registry
