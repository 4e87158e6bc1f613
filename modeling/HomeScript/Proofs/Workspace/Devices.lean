import HomeScript.Proofs.Device.Handle
import HomeScript.Proofs.Workspace.Shorthand

/-! # Devices in two halves

A device can be named by the halves of its handle, in the fields of a block or in the type of
another. Both are read alike, as the handle is from its text.
-/

namespace HomeScript

namespace Block
variable {b : Block} {integration device : String}

theorem handle_of_fields (htype : b.type = "device") (hi : b.field "INTEGRATION" = some integration)
    (hd : b.field "DEVICE" = some device) :
    b.handle = some (Handle.ofParts integration device) := by
  rw [handle, if_pos htype, hi, hd]
  rfl

theorem handle_of_typeName (h : '@' ∉ integration.toList)
    (htype : b.type = "device_" ++ (integration ++ "@" ++ device)) :
    b.handle = some (Handle.ofParts integration device) := by
  have hne : b.type ≠ "device" := by
    intro heq
    have hat : '@' ∈ b.type.toList := by rw [htype]; simp
    rw [heq] at hat
    exact absurd hat (by decide)
  rw [handle, if_neg hne, afterWord_eq_some_iff.2 htype, Option.map_some, Handle.parse_halves h]

theorem value_of_handle {found : Except Handle.Malformed Handle} (hh : b.handle = some found)
    (htype : ValueBlock.ofType b.type = .other) :
    b.device.value = found.toOption ∧ b.expr.value = found.toOption.map .device := by
  have hdevice : b.device.value = found.toOption := by rw [value_device, hh, Option.bind_some]
  rw [value_expr, htype, hdevice]
  exact ⟨rfl, rfl⟩

theorem value_of_fields (htype : b.type = "device")
    (hi : b.field "INTEGRATION" = some integration) (hd : b.field "DEVICE" = some device) :
    b.device.value = (Handle.ofParts integration device).toOption
      ∧ b.expr.value = (Handle.ofParts integration device).toOption.map .device := by
  apply value_of_handle (handle_of_fields htype hi hd)
  rw [htype]
  decide

theorem value_of_typeName (h : '@' ∉ integration.toList)
    (htype : b.type = "device_" ++ (integration ++ "@" ++ device)) :
    b.device.value = (Handle.ofParts integration device).toOption
      ∧ b.expr.value = (Handle.ofParts integration device).toOption.map .device := by
  apply value_of_handle (handle_of_typeName h htype)
  apply ValueBlock.ofType_of_mem
  rw [htype]
  simp

end Block

namespace Handle

/-- A text is the handle whose text it is, if that has two proper halves, and two halves are a
handle if their text is the handle of just these. In blocks both ways name the same device. -/
theorem halves_agree (text integration device : String) :
    (∀ h, parse text = .ok h ↔ h.integration ≠ "" ∧ '@' ∉ h.integration.toList ∧ h.device ≠ ""
        ∧ h.integration ++ "@" ++ h.device = text)
      ∧ (∀ e, parse text = .error e ↔ e = ⟨text⟩ ∧ ∀ h, parse text ≠ .ok h)
      ∧ (∀ h, ofParts integration device = .ok h ↔ h = ⟨integration, device⟩
        ∧ parse (integration ++ "@" ++ device) = .ok ⟨integration, device⟩)
      ∧ (∀ e, ofParts integration device = .error e ↔ e = ⟨integration ++ "@" ++ device⟩
        ∧ parse (integration ++ "@" ++ device) ≠ .ok ⟨integration, device⟩)
      ∧ ('@' ∉ integration.toList → ∀ b c : Block, b.type = "device" →
        b.field "INTEGRATION" = some integration → b.field "DEVICE" = some device →
        c.type = "device_" ++ (integration ++ "@" ++ device) →
        b.device.value = c.device.value ∧ b.expr.value = c.expr.value) := by
  have hparse : parse (integration ++ "@" ++ device) = .ok ⟨integration, device⟩
      ↔ (⟨integration, device⟩ : Handle).IsWellFormed := by
    rw [parse_eq_ok_iff]
    exact and_iff_left rfl
  refine ⟨?_, fun e => parse_eq_error_iff, ?_, ?_, ?_⟩
  · intro h
    rw [parse_eq_ok_iff, IsWellFormed, Handle.text]
    tauto
  · intro h
    rw [ofParts_eq_ok_iff, hparse]
    constructor
    · rintro ⟨hw, rfl⟩
      exact ⟨rfl, hw⟩
    · rintro ⟨rfl, hw⟩
      exact ⟨hw, rfl⟩
  · intro e
    rw [ofParts_eq_error_iff, ne_eq, hparse, and_comm]
  · intro hi b c hb hintegration hdevice hc
    obtain ⟨hbdevice, hbexpr⟩ := Block.value_of_fields hb hintegration hdevice
    obtain ⟨hcdevice, hcexpr⟩ := Block.value_of_typeName hi hc
    rw [hbdevice, hbexpr, hcdevice, hcexpr]
    exact ⟨rfl, rfl⟩

end Handle
end HomeScript
