import Mathlib.Data.List.Nodup
import Mathlib.Data.Prod.Lex
import HomeScript.Device.Basic
import HomeScript.Proofs.Text.Bytes

/-! # The order of the toolbox

Devices are in order by the priorities of their kinds, which count downwards, and then by the names
that are shown. Sorting is stable, and devices that differ in one of the two are sorted in one way.
-/

namespace HomeScript.Device

/-- The kind of a device has a higher priority than that of another, or it has the same one and the
device has no greater name by its bytes. -/
def MayPrecede (a b : Device) : Prop :=
  b.kind.priority < a.kind.priority ∨ a.kind.priority = b.kind.priority
    ∧ Text.bytes a.displayName ≤ Text.bytes b.displayName

/-- What devices are sorted by. -/
def sortKey (d : Device) : ℕᵒᵈ ×ₗ String :=
  toLex (OrderDual.toDual d.kind.priority, d.displayName)

theorem mayPrecede_iff {a b : Device} : a.MayPrecede b ↔ a.sortKey ≤ b.sortKey := by
  rw [sortKey, sortKey, Prod.Lex.toLex_le_toLex, OrderDual.toDual_lt_toDual,
    OrderDual.toDual_inj, ← Text.bytes_le_iff]
  rfl

theorem precedes_iff {a b : Device} : precedes a b ↔ a.MayPrecede b := by
  rw [precedes, Bool.or_eq_true, Bool.and_eq_true, decide_eq_true_iff, beq_iff_eq,
    Bool.not_eq_true', decide_eq_false_iff_not, not_lt, ← Text.bytes_le_iff]
  rfl

theorem precedes_trans (a b c : Device) (hab : precedes a b) (hbc : precedes b c) :
    precedes a c := by
  rw [precedes_iff, mayPrecede_iff] at *
  exact hab.trans hbc

theorem precedes_total (a b : Device) : precedes a b || precedes b a := by
  rw [Bool.or_eq_true, precedes_iff, precedes_iff, mayPrecede_iff, mayPrecede_iff]
  exact le_total _ _

theorem perm_inToolboxOrder (ds : List Device) : (inToolboxOrder ds).Perm ds :=
  List.mergeSort_perm ds precedes

theorem pairwise_inToolboxOrder (ds : List Device) :
    (inToolboxOrder ds).Pairwise fun a b => precedes a b :=
  List.pairwise_mergeSort precedes_trans precedes_total ds

/-- Devices with one priority and one name are as they were among themselves. -/
theorem filter_inToolboxOrder (ds : List Device) (p : ℕ) (name : String) :
    (inToolboxOrder ds).filter (fun d => d.kind.priority = p ∧ d.displayName = name)
      = ds.filter fun d => d.kind.priority = p ∧ d.displayName = name := by
  set alike : Device → Bool := fun d => d.kind.priority = p ∧ d.displayName = name with halike
  have hpairwise : (ds.filter alike).Pairwise fun a b => precedes a b := by
    apply List.pairwise_of_forall_mem_list
    intro a ha b hb
    obtain ⟨hpa, hna⟩ := of_decide_eq_true (List.mem_filter.1 ha).2
    obtain ⟨hpb, hnb⟩ := of_decide_eq_true (List.mem_filter.1 hb).2
    rw [precedes_iff, MayPrecede, hpa, hpb, hna, hnb]
    exact .inr ⟨rfl, List.le_refl _⟩
  have hsublist : (ds.filter alike).Sublist (inToolboxOrder ds) :=
    List.sublist_mergeSort precedes_trans precedes_total hpairwise List.filter_sublist
  have hfilter := hsublist.filter alike
  simp only [List.filter_filter, Bool.and_self] at hfilter
  have hlength := ((perm_inToolboxOrder ds).filter alike).length_eq
  exact (hfilter.eq_of_length hlength.symm).symm

theorem eq_of_sortKey {a b : Device} (h : a.sortKey = b.sortKey) :
    (a.kind.priority, a.displayName) = (b.kind.priority, b.displayName) :=
  h

/-- Sorting keeps the devices and puts each before those that it may precede. Devices alike in
priority and name stay as they were, and so does a list that is sorted; where no two are alike, the
order before does not count. -/
theorem inToolboxOrder_stable (ds : List Device) :
    (inToolboxOrder ds).Perm ds
      ∧ (inToolboxOrder ds).Pairwise MayPrecede
      ∧ (∀ p name,
        (inToolboxOrder ds).filter (fun d => d.kind.priority = p ∧ d.displayName = name)
          = ds.filter fun d => d.kind.priority = p ∧ d.displayName = name)
      ∧ inToolboxOrder (inToolboxOrder ds) = inToolboxOrder ds
      ∧ ∀ es, ds.Perm es → (ds.map fun d => (d.kind.priority, d.displayName)).Nodup →
        inToolboxOrder ds = inToolboxOrder es := by
  refine ⟨perm_inToolboxOrder ds, ?_, filter_inToolboxOrder ds, ?_, ?_⟩
  · exact (pairwise_inToolboxOrder ds).imp precedes_iff.1
  · exact List.mergeSort_of_pairwise (pairwise_inToolboxOrder ds)
  · intro es hperm hnodup
    have hsorted : (inToolboxOrder ds).Perm (inToolboxOrder es) :=
      (perm_inToolboxOrder ds).trans (hperm.trans (perm_inToolboxOrder es).symm)
    apply hsorted.eq_of_pairwise _ (pairwise_inToolboxOrder ds) (pairwise_inToolboxOrder es)
    intro a b ha hb hab hba
    rw [precedes_iff, mayPrecede_iff] at hab hba
    have hbds : b ∈ ds := hperm.mem_iff.2 ((perm_inToolboxOrder es).mem_iff.1 hb)
    have hads : a ∈ ds := (perm_inToolboxOrder ds).mem_iff.1 ha
    exact List.inj_on_of_nodup_map hnodup hads hbds (eq_of_sortKey (le_antisymm hab hba))

end HomeScript.Device
