import Mathlib.Data.List.Nodup
import HomeScript.Device.Event

/-! # Events of devices

Which events are possible depends on the kinds of the devices alone, and not on their order. An
event of the catalog is possible when a device has the kind that the event is related to; only the
clock, which is related to devices of an unknown kind, comes from no device.
-/

namespace HomeScript

namespace CatalogEvent

theorem mem_all (e : CatalogEvent) : e ∈ all := by
  cases e <;> decide

theorem nodup_names : (all.map name).Nodup := by
  decide

theorem name_injective : Function.Injective name := fun a b h =>
  List.inj_on_of_nodup_map nodup_names (mem_all a) (mem_all b) h

theorem descriptor_injective : Function.Injective descriptor := fun _ _ h =>
  name_injective (congrArg RuntimeEvent.event h)

/-- What a kind emits and what an event is related to say the same, but for the clock. -/
theorem mem_ofKind_iff {k : DeviceKind} {e : CatalogEvent} :
    e ∈ ofKind k ↔ e ≠ clockTick ∧ k = e.relatedKind := by
  cases k <;> cases e <;> decide

theorem mem_possible_iff {ds : List Device} {e : CatalogEvent} :
    e ∈ possible ds ↔ e ≠ clockTick ∧ ∃ d ∈ ds, d.kind = e.relatedKind := by
  simp only [possible, List.mem_filter, mem_all, true_and, List.any_eq_true,
    List.contains_iff_mem, mem_ofKind_iff]
  constructor
  · rintro ⟨d, hd, hclock, hkind⟩
    exact ⟨hclock, d, hd, hkind⟩
  · rintro ⟨hclock, d, hd, hkind⟩
    exact ⟨d, hd, hclock, hkind⟩

theorem possible_sublist (ds : List Device) : (possible ds).Sublist all :=
  List.filter_sublist

end CatalogEvent

theorem descriptor_mem_possibleEvents_iff {ds : List Device} {e : CatalogEvent} :
    e.descriptor ∈ possibleEvents ds ↔ e ≠ .clockTick ∧ ∃ d ∈ ds, d.kind = e.relatedKind := by
  rw [possibleEvents, List.mem_map_of_injective CatalogEvent.descriptor_injective,
    CatalogEvent.mem_possible_iff]

theorem possibleEvents_sublist (ds : List Device) :
    (possibleEvents ds).Sublist (CatalogEvent.all.map CatalogEvent.descriptor) :=
  (CatalogEvent.possible_sublist ds).map _

theorem nodup_names_possibleEvents (ds : List Device) :
    ((possibleEvents ds).map RuntimeEvent.event).Nodup := by
  have hnames : (possibleEvents ds).map RuntimeEvent.event
      = (CatalogEvent.possible ds).map CatalogEvent.name := by
    rw [possibleEvents, List.map_map]
    rfl
  rw [hnames]
  exact CatalogEvent.nodup_names.sublist ((CatalogEvent.possible_sublist ds).map _)

theorem mem_possibleEvents_append {ds es : List Device} {r : RuntimeEvent} :
    r ∈ possibleEvents (ds ++ es) ↔ r ∈ possibleEvents ds ∨ r ∈ possibleEvents es := by
  simp only [possibleEvents, List.mem_map, CatalogEvent.mem_possible_iff, List.mem_append,
    or_and_right, exists_or, and_or_left]

theorem possibleEvents_congr {ds es : List Device}
    (h : ∀ k, k ∈ ds.map Device.kind ↔ k ∈ es.map Device.kind) :
    possibleEvents ds = possibleEvents es := by
  have hany (e : CatalogEvent) :
      (ds.any fun d => (CatalogEvent.ofKind d.kind).contains e)
        = es.any fun d => (CatalogEvent.ofKind d.kind).contains e := by
    have hkinds (ds : List Device) : (ds.any fun d => (CatalogEvent.ofKind d.kind).contains e)
        = (ds.map Device.kind).any fun k => (CatalogEvent.ofKind k).contains e := by
      rw [List.any_map]
      rfl
    rw [hkinds, hkinds, Bool.eq_iff_iff, List.any_eq_true, List.any_eq_true]
    simp only [h]
  simp only [possibleEvents, CatalogEvent.possible, hany]

theorem possibleEvents_inToolboxOrder (ds : List Device) :
    possibleEvents (Device.inToolboxOrder ds) = possibleEvents ds := by
  apply possibleEvents_congr
  intro k
  exact ((List.mergeSort_perm ds Device.precedes).map Device.kind).mem_iff

theorem possibleEvents_of_subset {ds es : List Device} (hds : ds ⊆ es) (hes : es ⊆ ds) :
    possibleEvents ds = possibleEvents es :=
  possibleEvents_congr fun _ => ⟨fun h => List.map_subset _ hds h, fun h => List.map_subset _ hes h⟩

/-- The possible events are those of the catalog, in its order and each once, that are related to
the kind of a device, and the clock is never one of them. So they are the same for devices of the
same kinds, in particular for the same devices in another order or listed more than once, and those
of two lists together are those of the one and those of the other. -/
theorem possibleEvents_of_kinds (ds : List Device) :
    (possibleEvents ds).Sublist (CatalogEvent.all.map CatalogEvent.descriptor)
      ∧ ((possibleEvents ds).map RuntimeEvent.event).Nodup
      ∧ (∀ e : CatalogEvent, e ≠ .clockTick →
        (e.descriptor ∈ possibleEvents ds ↔ ∃ d ∈ ds, d.kind = e.relatedKind))
      ∧ CatalogEvent.descriptor .clockTick ∉ possibleEvents ds
      ∧ (∀ es : List Device, (∀ k, k ∈ ds.map Device.kind ↔ k ∈ es.map Device.kind) →
        possibleEvents ds = possibleEvents es)
      ∧ (∀ es : List Device, ds ⊆ es → es ⊆ ds → possibleEvents ds = possibleEvents es)
      ∧ ∀ es r, r ∈ possibleEvents (ds ++ es) ↔ r ∈ possibleEvents ds ∨ r ∈ possibleEvents es := by
  refine ⟨possibleEvents_sublist ds, nodup_names_possibleEvents ds, ?_, ?_, ?_, ?_, ?_⟩
  · intro e he
    rw [descriptor_mem_possibleEvents_iff, and_iff_right he]
  · rw [descriptor_mem_possibleEvents_iff]
    exact fun h => h.1 rfl
  · intro es h
    exact possibleEvents_congr h
  · intro es hds hes
    exact possibleEvents_of_subset hds hes
  · intro es r
    exact mem_possibleEvents_append

end HomeScript
