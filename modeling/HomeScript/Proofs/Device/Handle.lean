import Mathlib.Data.List.TakeDrop
import Mathlib.Data.List.TakeWhile
import HomeScript.Device.Handle

/-! # The text of a handle

A text is divided at its first `@`. So the handles that are read are those that can be told from
their text, and each of them is read from its own text only.
-/

namespace HomeScript.Handle

theorem parse_of_not_mem {text : String} (h : '@' ∉ text.toList) :
    parse text = .error ⟨text⟩ := by
  have hrest : text.toList.dropWhile (· ≠ '@') = [] := by
    rw [List.dropWhile_eq_nil_iff]
    intro c hc
    rw [decide_eq_true_iff]
    rintro rfl
    exact h hc
  rw [parse, List.span_eq_takeWhile_dropWhile, hrest]

/-- The first `@` is the one between the halves. -/
theorem parse_halves {integration device : String} (h : '@' ∉ integration.toList) :
    parse (integration ++ "@" ++ device) = ofParts integration device := by
  have hall : ∀ c ∈ integration.toList, decide (c ≠ '@') := by
    intro c hc
    rw [decide_eq_true_iff]
    rintro rfl
    exact h hc
  have htext : (integration ++ "@" ++ device).toList
      = integration.toList ++ '@' :: device.toList := by simp
  rw [parse, htext, List.span_eq_takeWhile_dropWhile, List.takeWhile_append_of_pos hall,
    List.dropWhile_append_of_pos hall]
  simp

theorem exists_halves {text : String} (h : '@' ∈ text.toList) :
    ∃ integration device, '@' ∉ integration.toList ∧ text = integration ++ "@" ++ device := by
  obtain ⟨before, after, htext, hbefore⟩ := List.eq_append_cons_of_mem h
  refine ⟨String.ofList before, String.ofList after, by simpa using hbefore, ?_⟩
  rw [← String.toList_inj, htext]
  simp

theorem ofParts_eq_ok_iff {integration device : String} {h : Handle} :
    ofParts integration device = .ok h ↔ h.IsWellFormed ∧ h = ⟨integration, device⟩ := by
  rw [ofParts]
  constructor
  · intro hp
    split at hp
    · next hw =>
      obtain rfl := Except.ok.inj hp
      exact ⟨hw, rfl⟩
    · cases hp
  · rintro ⟨hw, rfl⟩
    exact if_pos hw

theorem ofParts_eq_error_iff {integration device : String} {e : Malformed} :
    ofParts integration device = .error e
      ↔ ¬ (⟨integration, device⟩ : Handle).IsWellFormed ∧ e = ⟨integration ++ "@" ++ device⟩ := by
  rw [ofParts]
  constructor
  · intro hp
    split at hp
    · cases hp
    · next hw => exact ⟨hw, (Except.error.inj hp).symm⟩
  · rintro ⟨hw, rfl⟩
    exact if_neg hw

theorem isWellFormed_of_ofParts {integration device : String} {h : Handle}
    (hp : ofParts integration device = .ok h) : h.IsWellFormed :=
  (ofParts_eq_ok_iff.1 hp).1

theorem parse_text {h : Handle} (hw : h.IsWellFormed) : parse h.text = .ok h := by
  rw [text, parse_halves hw.2.2, ofParts_eq_ok_iff]
  exact ⟨hw, rfl⟩

theorem parse_eq_ok_iff {text : String} {h : Handle} :
    parse text = .ok h ↔ h.IsWellFormed ∧ h.text = text := by
  constructor
  · intro hp
    by_cases hat : '@' ∈ text.toList
    · obtain ⟨integration, device, hi, rfl⟩ := exists_halves hat
      rw [parse_halves hi, ofParts_eq_ok_iff] at hp
      obtain ⟨hw, rfl⟩ := hp
      exact ⟨hw, rfl⟩
    · rw [parse_of_not_mem hat] at hp
      cases hp
  · rintro ⟨hw, rfl⟩
    exact parse_text hw

theorem parse_eq_error_iff {text : String} {e : Malformed} :
    parse text = .error e ↔ e = ⟨text⟩ ∧ ∀ h, parse text ≠ .ok h := by
  constructor
  · intro hp
    refine ⟨?_, fun h hok => by rw [hp] at hok; cases hok⟩
    by_cases hat : '@' ∈ text.toList
    · obtain ⟨integration, device, hi, rfl⟩ := exists_halves hat
      rw [parse_halves hi, ofParts_eq_error_iff] at hp
      exact hp.2
    · rw [parse_of_not_mem hat] at hp
      exact (Except.error.inj hp).symm
  · rintro ⟨rfl, hnone⟩
    by_cases hat : '@' ∈ text.toList
    · obtain ⟨integration, device, hi, rfl⟩ := exists_halves hat
      rw [parse_halves hi, ofParts_eq_error_iff]
      refine ⟨fun hw => hnone ⟨integration, device⟩ ?_, rfl⟩
      exact parse_eq_ok_iff.2 ⟨hw, rfl⟩
    · exact parse_of_not_mem hat

theorem isWellFormed_of_parse {text : String} {h : Handle} (hp : parse text = .ok h) :
    h.IsWellFormed :=
  (parse_eq_ok_iff.1 hp).1

/-- A handle has the text that it has been read from. -/
theorem text_of_parse {text : String} {h : Handle} (hp : parse text = .ok h) : h.text = text :=
  (parse_eq_ok_iff.1 hp).2

end HomeScript.Handle
