import Mathlib.Data.List.Count
import HomeScript.Proofs.Automation.Duplicates

/-! # Names in another order

Which of two automations gets a name depends on their order. How many names are in use, which ones
they are and how often each is reported does not, where all automations have ids of their own.
-/

namespace HomeScript

namespace Registry

/-- The names that somebody owns. -/
def usedNames (r : Registry) : Set String :=
  {name | ∃ owner, r.ownerOf name = some owner}

/-- All claims of a name but the first one of all repeat it. -/
theorem count_repeatedAfter (seen claims : List (String × String)) (n : String) :
    ((repeatedAfter seen claims).map DuplicateName.name).count n
      = (claims.map Prod.fst).count n - if seen.lookup n = none then 1 else 0 := by
  induction claims generalizing seen with
  | nil => simp [repeatedAfter]
  | cons c claims ih =>
    obtain ⟨name, owner⟩ := c
    rw [repeatedAfter_cons, List.map_append, List.count_append, ih, lookup_concat, List.map_cons,
      List.count_cons]
    rcases eq_or_ne n name with rfl | hne
    · cases seen.lookup n with
      | none => simp
      | some first => simp [Nat.add_comm]
    · have hreport : (((seen.lookup name).map fun first =>
          (⟨name, first⟩ : DuplicateName)).toList.map DuplicateName.name).count n = 0 := by
        cases seen.lookup name with
        | none => rfl
        | some first => simp [Ne.symm hne]
      rw [hreport, if_neg hne, Option.or_none]
      simp [Ne.symm hne]

theorem lookup_of_mem_repeated {claims : List (String × String)} {e : DuplicateName}
    (h : e ∈ repeated claims) : claims.lookup e.name = some e.owner := by
  obtain ⟨⟨⟨name, owner⟩, index⟩, -, he⟩ := List.mem_filterMap.1 h
  obtain ⟨first, hfirst, rfl⟩ := Option.map_eq_some_iff.1 he
  rw [List.nil_append] at hfirst
  rw [← List.take_append_drop index claims, List.lookup_append, hfirst]
  rfl

/-! ## Programs whose automations have ids of their own -/

/-- Every automation has an id, and no two have the same one. -/
structure HaveOwnIds (p : Program) : Prop where
  present : ∀ a ∈ p, a.id.isSome
  nodup : (p.map Automation.id).Nodup

theorem HaveOwnIds.perm {p q : Program} (h : HaveOwnIds p) (hperm : p.Perm q) : HaveOwnIds q where
  present a ha := h.present a (hperm.mem_iff.2 ha)
  nodup := (hperm.map Automation.id).nodup_iff.1 h.nodup

theorem HaveOwnIds.nodup_owners {p : Program} (h : HaveOwnIds p) :
    (p.claims.map Prod.snd).Nodup := by
  have hids : (p.claims.map Prod.snd).map some = p.map Automation.id := by
    apply List.ext_getElem
    · simp [Program.claims]
    · intro i hi _
      have hlt : i < p.length := by simpa [Program.claims] using hi
      obtain ⟨id, hid⟩ := Option.isSome_iff_exists.1 (h.present p[i] (List.getElem_mem hlt))
      simp [Program.claims, ownerKey, hid]
  exact List.Nodup.of_map some (hids ▸ h.nodup)

/-- The registry holds the first claim of each name, and the others are reported. -/
theorem HaveOwnIds.reports {p : Program} (h : HaveOwnIds p) :
    (∀ name, (ofProgram p).1.ownerOf name = p.claims.lookup name)
      ∧ (ofProgram p).2 = repeated p.claims
      ∧ (ofProgram p).1.size + (ofProgram p).2.length = p.length := by
  have hkeep : FirstsKeepAfter [] p.claims := firstsKeep_of_nodup h.nodup_owners
  rw [ofProgram_eq_claimEach]
  refine ⟨(holds_empty.claimEach hkeep).ownerOf_eq, holds_empty.refused_eq_repeatedAfter hkeep, ?_⟩
  simpa [Program.claims, empty, size] using (holds_empty.size_add_refused_eq_iff p.claims).2 hkeep

theorem HaveOwnIds.count_reports {p : Program} (h : HaveOwnIds p) (name : String) :
    ((ofProgram p).2.map DuplicateName.name).count name = p.names.count name - 1 := by
  rw [h.reports.2.1, repeated, count_repeatedAfter, names_claims]
  rfl

theorem HaveOwnIds.usedNames_eq {p : Program} (h : HaveOwnIds p) :
    (ofProgram p).1.usedNames = {name | name ∈ p.names} := by
  ext name
  rw [usedNames, Set.mem_ofPred_eq, Set.mem_ofPred_eq, ← Option.ne_none_iff_exists', h.reports.1,
    ne_eq, lookup_eq_none_iff, not_not, names_claims]

/-- Another order of the automations gives a registry of the same size and names and reports of the
same names, each as often. A report names the owner that the registry of its own order gives. -/
theorem ofProgram_reordered {p q : Program} (hperm : p.Perm q) (hids : HaveOwnIds p) :
    (ofProgram p).1.size = (ofProgram q).1.size
      ∧ (ofProgram p).1.usedNames = (ofProgram q).1.usedNames
      ∧ ((ofProgram p).2.map DuplicateName.name).Perm ((ofProgram q).2.map DuplicateName.name)
      ∧ (∀ e ∈ (ofProgram p).2, (ofProgram p).1.ownerOf e.name = some e.owner)
      ∧ ∀ e ∈ (ofProgram q).2, (ofProgram q).1.ownerOf e.name = some e.owner := by
  have hids' : HaveOwnIds q := hids.perm hperm
  have hnames : p.names.Perm q.names := hperm.map Automation.name
  have hreports : ((ofProgram p).2.map DuplicateName.name).Perm
      ((ofProgram q).2.map DuplicateName.name) := by
    rw [List.perm_iff_count]
    intro name
    rw [hids.count_reports, hids'.count_reports, hnames.count_eq]
  have howner {p : Program} (h : HaveOwnIds p) (e : DuplicateName) (he : e ∈ (ofProgram p).2) :
      (ofProgram p).1.ownerOf e.name = some e.owner := by
    rw [h.reports.1]
    exact lookup_of_mem_repeated (h.reports.2.1 ▸ he)
  refine ⟨?_, ?_, hreports, howner hids, howner hids'⟩
  · have hlength := hreports.length_eq
    have htotal := hids.reports.2.2
    have htotal' := hids'.reports.2.2
    rw [List.length_map, List.length_map] at hlength
    rw [hperm.length_eq] at htotal
    omega
  · rw [hids.usedNames_eq, hids'.usedNames_eq]
    ext name
    exact hnames.mem_iff

/-- Of two automations with one name, the later one is reported in either order. -/
theorem ofProgram_reordered_swapped :
    let a : Automation := { id := some "hall", name := "Morning" }
    let b : Automation := { id := some "kitchen", name := "Morning" }
    (ofProgram [a, b]).2 = [⟨"Morning", "hall"⟩] ∧ (ofProgram [b, a]).2 = [⟨"Morning", "kitchen"⟩]
      ∧ (ofProgram [a, b]).1.usedNames = (ofProgram [b, a]).1.usedNames
      ∧ (ofProgram [a, b]).1.ownerOf "Morning" = some "hall"
      ∧ (ofProgram [b, a]).1.ownerOf "Morning" = some "kitchen" := by
  intro a b
  have hab : (ofProgram [a, b]).2 = [⟨"Morning", "hall"⟩] := by decide
  have hba : (ofProgram [b, a]).2 = [⟨"Morning", "kitchen"⟩] := by decide
  have hids : HaveOwnIds [a, b] := ⟨by decide, by decide⟩
  obtain ⟨-, hnames, -, howner, howner'⟩ := ofProgram_reordered (List.Perm.swap b a []) hids
  exact ⟨hab, hba, hnames, howner _ (hab ▸ List.mem_singleton_self _),
    howner' _ (hba ▸ List.mem_singleton_self _)⟩

end Registry
end HomeScript
