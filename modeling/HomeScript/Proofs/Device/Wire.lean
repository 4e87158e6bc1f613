import HomeScript.Device.Wire
import HomeScript.Proofs.Automation.Wire
import HomeScript.Proofs.Json.Depth

/-! # Written devices and events are read back

Devices and events are read from their written forms, whose members may have been sorted.
-/

namespace HomeScript
open Json (Fault)

namespace Json

theorem sortedEach_eq (js : List Json) : sortedEach js = js.map sorted := by
  induction js with
  | nil => rfl
  | cons j js ih => rw [sortedEach, ih, List.map_cons]

/-- A list is read from what is written for its elements. -/
theorem elements_reread {α : Type} {xs : List α} {write : α → Json} {read : Json → Except Fault α}
    (h : ∀ x, read (write x).reread = .ok x) :
    (do (← (array (xs.map write)).reread.elements).mapM (read ·.1) : Except Fault (List α))
      = .ok xs := by
  have hread : (xs.map fun x => (write x).reread).mapM read = readIf (xs.all fun _ => true) xs :=
    mapM_readIf fun x _ => h x
  rw [reread, rereadEach_map, elements_mapM, hread]
  simp [readIf]

end Json

theorem DeviceKind.ofName_name (k : DeviceKind) : ofName k.name = k := by
  cases k <;> decide

theorem sorted_textOrNull (o : Option String) : (textOrNull o).sorted = textOrNull o := by
  cases o <;> rfl

theorem depth_textOrNull (o : Option String) : (textOrNull o).depth = 0 := by
  cases o <;> rfl

namespace Device

theorem sorted_toJson (d : Device) : d.toJson.sorted = .object [("id", .string d.id),
    ("integration", .string d.integration), ("name", textOrNull d.name),
    ("state", textOrNull d.state), ("typ", d.kind.toJson)] := by
  simp only [toJson, Json.sorted, Json.sortedMembers, Json.insertMember, sorted_textOrNull,
    DeviceKind.toJson, String.reduceEq, String.reduceLT, if_true, if_false]

theorem ofJson_object (id integration typ : String) (name state : Json) :
    ofJson (.object [("id", .string id), ("integration", .string integration), ("name", name),
      ("state", state), ("typ", .string typ)]) = do
    let name ← Json.unlessNull Json.asString name
    let state ← Json.unlessNull Json.asString state
    return { integration, id, name, kind := DeviceKind.ofName typ, state } :=
  rfl

theorem ofJson_sorted (d : Device) : ofJson d.toJson.sorted.reread = .ok d := by
  rw [sorted_toJson]
  refine (ofJson_object d.id d.integration d.kind.name (textOrNull d.name).reread
    (textOrNull d.state).reread).trans ?_
  rw [Automation.unlessNull_id, Automation.unlessNull_id, DeviceKind.ofName_name]
  rfl

theorem listOfJson_sorted (ds : List Device) :
    listOfJson (listToJson ds).sorted.reread = .ok ds := by
  rw [listToJson, Json.sorted, Json.sortedEach_eq, List.map_map]
  exact Json.elements_reread ofJson_sorted

theorem depth_sorted (ds : List Device) : (listToJson ds).sorted.depth ≤ 2 := by
  rw [listToJson, Json.sorted, Json.sortedEach_eq, Json.depth]
  apply Nat.succ_le_succ
  rw [Json.depthEach_le_iff]
  simp [sorted_toJson, Json.depth, Json.depthMembers, depth_textOrNull, DeviceKind.toJson]

end Device

namespace RuntimeEvent

theorem sorted_toJson (e : RuntimeEvent) : e.toJson.sorted = .object
    [("description", .string e.description), ("event", .string e.event),
      ("relatedDeviceType", e.relatedKind.toJson)] := by
  simp only [toJson, Json.sorted, Json.sortedMembers, Json.insertMember, DeviceKind.toJson,
    String.reduceEq, String.reduceLT, if_true, if_false]

theorem ofJson_sorted (e : RuntimeEvent) : ofJson e.toJson.sorted.reread = .ok e := by
  have hread : ofJson e.toJson.sorted.reread
      = .ok ⟨e.event, e.description, .ofName e.relatedKind.name⟩ := by
    rw [sorted_toJson]
    rfl
  rw [hread, DeviceKind.ofName_name]

theorem listOfJson_sorted (es : List RuntimeEvent) :
    listOfJson (listToJson es).sorted.reread = .ok es := by
  rw [listToJson, Json.sorted, Json.sortedEach_eq, List.map_map]
  exact Json.elements_reread ofJson_sorted

theorem depth_sorted (es : List RuntimeEvent) : (listToJson es).sorted.depth ≤ 2 := by
  rw [listToJson, Json.sorted, Json.sortedEach_eq, Json.depth]
  apply Nat.succ_le_succ
  rw [Json.depthEach_le_iff]
  simp [sorted_toJson, Json.depth, Json.depthMembers, DeviceKind.toJson]

end RuntimeEvent
end HomeScript
