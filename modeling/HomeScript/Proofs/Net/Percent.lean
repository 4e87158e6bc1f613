import Mathlib.Data.Bool.AllAny
import Mathlib.Data.List.Basic
import HomeScript.Net.Percent
import HomeScript.Proofs.Text.Bytes

/-! # What percent encoding leaves

Encoding writes no character that it would encode, so encoding once more changes nothing.
-/

namespace HomeScript.Net.Percent

theorem hexDigit_mem {n : ℕ} (h : n < 16) : hexDigit n ∈ "0123456789ABCDEF".toList := by
  have hall : ∀ m < 16, hexDigit m ∈ "0123456789ABCDEF".toList := by decide
  exact hall n h

/-- The characters that encoding may write of its own stay as they are. -/
def KeepsCodes (isEncoded : Char → Bool) : Prop :=
  ∀ c ∈ "%0123456789ABCDEF".toList, isEncoded c = false

theorem keepsCodes_inPath : KeepsCodes inPath :=
  List.all_iff_forall_prop.1 (by decide)

theorem keepsCodes_inUserinfo : KeepsCodes inUserinfo :=
  List.all_iff_forall_prop.1 (by decide)

theorem keepsCodes_inSpecialQuery : KeepsCodes inSpecialQuery :=
  List.all_iff_forall_prop.1 (by decide)

theorem keepsCodes_inFragment : KeepsCodes inFragment :=
  List.all_iff_forall_prop.1 (by decide)

theorem mem_encodeByte {b : UInt8} {c : Char} (h : c ∈ encodeByte b) :
    c ∈ "%0123456789ABCDEF".toList := by
  have hlt := b.toNat_lt
  have hhigh := hexDigit_mem (show b.toNat / 16 < 16 by omega)
  have hlow := hexDigit_mem (show b.toNat % 16 < 16 by omega)
  rw [encodeByte, List.mem_cons, List.mem_cons, List.mem_singleton] at h
  rcases h with rfl | rfl | rfl
  · decide
  · exact List.mem_cons_of_mem _ hhigh
  · exact List.mem_cons_of_mem _ hlow

variable {isEncoded : Char → Bool} {cs : List Char}

/-- What encoding writes is a character that it leaves or part of a code. -/
theorem mem_encode {c : Char} (h : c ∈ encode isEncoded cs) :
    (c ∈ cs ∧ isEncoded c = false) ∨ c ∈ "%0123456789ABCDEF".toList := by
  obtain ⟨d, hd, hc⟩ := List.mem_flatMap.1 h
  split at hc
  · obtain ⟨b, -, hb⟩ := List.mem_flatMap.1 hc
    exact .inr (mem_encodeByte hb)
  · next hkept =>
    rw [List.mem_singleton] at hc
    subst hc
    exact .inl ⟨hd, Bool.eq_false_iff.2 hkept⟩

theorem not_encoded_of_mem_encode (hkeeps : KeepsCodes isEncoded) {c : Char}
    (h : c ∈ encode isEncoded cs) : isEncoded c = false := by
  rcases mem_encode h with ⟨-, hc⟩ | hc
  · exact hc
  · exact hkeeps c hc

theorem encode_eq_self (h : ∀ c ∈ cs, isEncoded c = false) : encode isEncoded cs = cs := by
  have hsingle : (cs.flatMap fun c => if isEncoded c then
      (String.utf8EncodeChar c).flatMap encodeByte else [c]) = cs.flatMap fun c => [c] := by
    apply List.flatMap_congr
    intro c hc
    rw [h c hc]
    rfl
  rw [encode, hsingle, List.flatMap_singleton']

/-- Where a text is encoded, the code of a leading byte is written. -/
theorem exists_code {c : Char} (hc : c ∈ cs) (hencoded : isEncoded c) :
    ∃ before lead after, encode isEncoded cs = before ++ (encodeByte lead ++ after)
      ∧ (lead.toNat = c.toNat ∨ 192 ≤ lead.toNat) := by
  obtain ⟨cs, ds, rfl⟩ := List.append_of_mem hc
  obtain ⟨lead, rest, hbytes, hlead⟩ := Text.exists_lead_utf8EncodeChar c
  refine ⟨encode isEncoded cs, lead, rest.flatMap encodeByte ++ encode isEncoded ds, ?_, hlead⟩
  simp only [encode, List.flatMap_append, List.flatMap_cons, hencoded, hbytes, if_true,
    List.append_assoc]

/-! ## Characters that are left -/

theorem space_lt_of_not_isControl {c : Char} (hcontrol : isControl c = false) (hspace : c ≠ ' ') :
    ' ' < c := by
  rw [isControl, Bool.or_eq_false_iff, decide_eq_false_iff_not, not_lt] at hcontrol
  exact lt_of_le_of_ne hcontrol.1 hspace.symm

theorem space_lt_of_inFragment {c : Char} (h : inFragment c = false) : ' ' < c := by
  refine space_lt_of_not_isControl (Bool.or_eq_false_iff.1 h).1 ?_
  rintro rfl
  exact absurd h (by decide)

theorem space_lt_of_inPath {c : Char} (h : inPath c = false) : ' ' < c :=
  space_lt_of_inFragment (Bool.or_eq_false_iff.1 h).1

theorem space_lt_of_inUserinfo {c : Char} (h : inUserinfo c = false) : ' ' < c :=
  space_lt_of_inPath (Bool.or_eq_false_iff.1 h).1

theorem space_lt_of_inSpecialQuery {c : Char} (h : inSpecialQuery c = false) : ' ' < c := by
  refine space_lt_of_not_isControl (Bool.or_eq_false_iff.1 (Bool.or_eq_false_iff.1 h).1).1 ?_
  rintro rfl
  exact absurd h (by decide)

end HomeScript.Net.Percent
