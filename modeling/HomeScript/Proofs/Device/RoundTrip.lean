import HomeScript.Proofs.Device.Wire
import HomeScript.Proofs.Json.Matching

/-! # Devices and events survive their texts

Devices and events are read back from the texts that are written for them. A kind is written by its
name and read from a table of its own, where every other name stands for the unknown kind.
-/

namespace HomeScript

namespace Json

theorem asString_eq_ok_iff {j : Json} {s : String} : j.asString = .ok s ↔ j = .string s := by
  cases j <;> simp [asString, mismatch]

theorem depth_array_le {α : Type} {xs : List α} {write : α → Json} {n : ℕ}
    (h : ∀ x, (write x).depth ≤ n) : (array (xs.map write)).depth ≤ n + 1 := by
  rw [Json.depth]
  apply Nat.succ_le_succ
  rw [depthEach_le_iff, List.forall_mem_map]
  exact fun x _ => h x

end Json

namespace DeviceKind

theorem ofName_eq_unknown_or (s : String) : ofName s = unknown ∨ (ofName s).name = s := by
  fun_cases ofName s
  case case7 => exact .inl rfl
  all_goals exact .inr rfl

theorem ofName_of_forall_ne {s : String} (h : ∀ k, s ≠ name k) : ofName s = unknown :=
  (ofName_eq_unknown_or s).resolve_right fun hs => h _ hs.symm

theorem ofName_eq_iff {s : String} {k : DeviceKind} :
    ofName s = k ↔ s = k.name ∨ k = unknown ∧ ∀ k', s ≠ name k' := by
  constructor
  · rintro rfl
    by_cases h : ∀ k', s ≠ name k'
    · exact .inr ⟨ofName_of_forall_ne h, h⟩
    · push Not at h
      obtain ⟨k, rfl⟩ := h
      exact .inl (by rw [ofName_name])
  · rintro (rfl | ⟨rfl, h⟩)
    · exact ofName_name k
    · exact ofName_of_forall_ne h

theorem ofJson_eq_ok_iff {j : Json} {k : DeviceKind} :
    ofJson j = .ok k ↔ ∃ s, j = .string s ∧ ofName s = k := by
  rw [ofJson, Json.map_eq_ok]
  simp only [Json.asString_eq_ok_iff]

end DeviceKind

namespace Device

theorem ofJson_written (integration id typ : String) (name state : Json) :
    ofJson (.object [("integration", .string integration), ("id", .string id), ("name", name),
      ("typ", .string typ), ("state", state)]) = do
    let name ← Json.unlessNull Json.asString name
    let state ← Json.unlessNull Json.asString state
    return { integration, id, name, kind := DeviceKind.ofName typ, state } :=
  rfl

theorem ofJson_reread (d : Device) : ofJson d.toJson.reread = .ok d := by
  refine (ofJson_written d.integration d.id d.kind.name (textOrNull d.name).reread
    (textOrNull d.state).reread).trans ?_
  rw [Automation.unlessNull_id, Automation.unlessNull_id, DeviceKind.ofName_name]
  rfl

theorem depth_toJson (d : Device) : d.toJson.depth ≤ 1 := by
  simp [toJson, Json.depth, Json.depthMembers, depth_textOrNull, DeviceKind.toJson]

theorem ofJson_read_text (d : Device) : (Json.read d.toJson.text >>= ofJson) = .ok d := by
  rw [Json.read_text (d.depth_toJson.trans (by decide)), Json.ok_bind, ofJson_reread]

theorem listOfJson_read_text (ds : List Device) :
    (Json.read (listToJson ds).text >>= listOfJson) = .ok ds := by
  have hdepth : (listToJson ds).depth ≤ 2 := Json.depth_array_le depth_toJson
  rw [Json.read_text (hdepth.trans (by decide)), Json.ok_bind]
  exact Json.elements_reread ofJson_reread

/-- A device is of a kind if its type is given by the name of the kind, and of the unknown kind also
if its type is given by another text or not at all. -/
theorem kind_eq_iff {j : Json} {d : Device} (h : ofJson j = .ok d) (k : DeviceKind) :
    d.kind = k ↔ j.part? fields "typ" = some (.string k.name)
      ∨ k = .unknown ∧ ∀ k' : DeviceKind, j.part? fields "typ" ≠ some (.string k'.name) := by
  simp only [ofJson, Json.bind_eq_ok] at h
  obtain ⟨r, hr, _, -, _, -, _, -, kind, hkind, _, -, hd⟩ := h
  cases hd
  rw [Json.part?_of_record hr]
  unfold Json.Record.optional at hkind
  split at hkind
  · next p hp =>
    obtain ⟨s, hs, rfl⟩ := DeviceKind.ofJson_eq_ok_iff.1 hkind
    simp only [hp, Option.map_some, hs, Option.some.injEq, Json.string.injEq, ne_eq]
    exact DeviceKind.ofName_eq_iff
  · next hp =>
    cases hkind
    simp [hp, eq_comm]

end Device

namespace RuntimeEvent

theorem ofJson_reread (e : RuntimeEvent) : ofJson e.toJson.reread = .ok e := by
  have hread : ofJson e.toJson.reread = .ok ⟨e.event, e.description, .ofName e.relatedKind.name⟩ :=
    rfl
  rw [hread, DeviceKind.ofName_name]

theorem depth_toJson (e : RuntimeEvent) : e.toJson.depth ≤ 1 := by
  simp [toJson, Json.depth, Json.depthMembers, DeviceKind.toJson]

theorem listOfJson_read_text (es : List RuntimeEvent) :
    (Json.read (listToJson es).text >>= listOfJson) = .ok es := by
  have hdepth : (listToJson es).depth ≤ 2 := Json.depth_array_le depth_toJson
  rw [Json.read_text (hdepth.trans (by decide)), Json.ok_bind]
  exact Json.elements_reread ofJson_reread

end RuntimeEvent

/-- Lists of devices and of events are read back from their texts. So is a device that was read from
any value, and its kind is the one whose name was given there, or else the unknown one. -/
theorem descriptors_read_back :
    (∀ ds : List Device, (Json.read (Device.listToJson ds).text >>= Device.listOfJson) = .ok ds)
      ∧ (∀ es : List RuntimeEvent,
        (Json.read (RuntimeEvent.listToJson es).text >>= RuntimeEvent.listOfJson) = .ok es)
      ∧ ∀ (j : Json) (d : Device), Device.ofJson j = .ok d →
        (Json.read d.toJson.text >>= Device.ofJson) = .ok d
          ∧ ∀ k : DeviceKind, d.kind = k ↔
            j.part? Device.fields "typ" = some (.string k.name) ∨ k = .unknown
              ∧ ∀ k' : DeviceKind, j.part? Device.fields "typ" ≠ some (.string k'.name) := by
  refine ⟨Device.listOfJson_read_text, RuntimeEvent.listOfJson_read_text, ?_⟩
  intro j d h
  exact ⟨d.ofJson_read_text, Device.kind_eq_iff h⟩

/-- A device of a type that is not known, with marks in its name that a text has to escape. -/
theorem descriptors_read_back_toaster :
    let d : Device := { integration := "hass", id := "toaster.1", name := some "\"\\\x01😀" }
    let j : Json := .object [("typ", .string "Toaster"), ("name", .string "\"\\\x01😀"),
      ("id", .string "toaster.1"), ("slots", .integer 2), ("integration", .string "hass")]
    Device.ofJson j = .ok d ∧ (Json.read d.toJson.text >>= Device.ofJson) = .ok d
      ∧ (∀ k : DeviceKind, j.part? Device.fields "typ" ≠ some (.string k.name))
      ∧ d.kind = .unknown := by
  intro d j
  have hread : Device.ofJson j = .ok d := rfl
  obtain ⟨hback, hkind⟩ := descriptors_read_back.2.2 j d hread
  have hname (k : DeviceKind) : j.part? Device.fields "typ" ≠ some (.string k.name) := by
    cases k <;> simp [j, Json.part?, DeviceKind.name]
  exact ⟨hread, hback, hname, (hkind .unknown).2 (.inr ⟨rfl, hname⟩)⟩

end HomeScript
