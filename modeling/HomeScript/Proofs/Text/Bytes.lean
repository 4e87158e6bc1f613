import Mathlib.Data.String.Basic

/-! # Texts in the order of their bytes

Texts stand in the same order by their bytes in UTF-8 as by their characters: the first byte in
which two characters differ is greater in the greater one.
-/

namespace HomeScript.Text

/-- The bytes of a text in UTF-8. -/
def bytes (text : String) : List UInt8 :=
  text.toUTF8.data.toList

theorem bytes_eq (text : String) : bytes text = text.toList.flatMap String.utf8EncodeChar := by
  have hbytes : text.toUTF8 = (text.toList.flatMap String.utf8EncodeChar).toByteArray :=
    String.utf8Encode_toList.symm
  rw [bytes, hbytes, List.toList_data_toByteArray]

/-! ## One character -/

/-- The first of these bytes comes before the other, whatever follows. -/
def Below (a b : List UInt8) : Prop :=
  ∀ x y, a ++ x < b ++ y

theorem Below.append {a b : List UInt8} (h : Below a b) (c d : List UInt8) :
    Below (a ++ c) (b ++ d) := by
  intro x y
  rw [List.append_assoc, List.append_assoc]
  exact h _ _

theorem below_cons {a b : UInt8} (h : a < b) (c d : List UInt8) : Below (a :: c) (b :: d) := by
  intro x y
  exact List.cons_lt_cons_iff.2 (.inl h)

theorem ofNat_lt_ofNat {m n : ℕ} (h : m < n) (hn : n < 256) : UInt8.ofNat m < UInt8.ofNat n := by
  rw [UInt8.lt_iff_toNat_lt, UInt8.toNat_ofNat', UInt8.toNat_ofNat']
  omega

/-- A number in a leading byte, marked by a base, and more bytes of six bits each. -/
def sixBitBytes (base : ℕ) : ℕ → ℕ → List UInt8
  | 0, n => [.ofNat (n + base)]
  | more + 1, n => sixBitBytes base more (n / 64) ++ [.ofNat (n % 64 + 128)]

theorem exists_sixBitBytes (base more n : ℕ) :
    ∃ rest, sixBitBytes base more n = .ofNat (n / 64 ^ more + base) :: rest := by
  induction more generalizing n with
  | zero => exact ⟨[], by simp [sixBitBytes]⟩
  | succ more ih =>
    obtain ⟨rest, hrest⟩ := ih (n / 64)
    rw [sixBitBytes, hrest, Nat.div_div_eq_div_mul, ← Nat.pow_succ']
    exact ⟨_, rfl⟩

theorem below_sixBitBytes {base more m n : ℕ} (h : m < n) (hn : n / 64 ^ more + base < 256) :
    Below (sixBitBytes base more m) (sixBitBytes base more n) := by
  induction more generalizing m n with
  | zero => exact below_cons (ofNat_lt_ofNat (by omega) (by simpa using hn)) [] []
  | succ more ih =>
    rw [sixBitBytes, sixBitBytes]
    rcases Nat.lt_or_ge (m / 64) (n / 64) with hlt | hge
    · rw [Nat.pow_succ', ← Nat.div_div_eq_div_mul] at hn
      exact (ih hlt hn).append _ _
    · have heq : m / 64 = n / 64 := by omega
      rw [heq]
      intro x y
      rw [List.append_assoc, List.append_assoc]
      apply List.append_left_lt
      exact below_cons (ofNat_lt_ofNat (by omega) (by omega)) [] [] x y

/-- How many bytes follow the leading one of a character, and what marks that one. -/
def IsMarked (n base more : ℕ) : Prop :=
  more = 0 ∧ base = 0 ∧ n < 128
    ∨ more = 1 ∧ base = 192 ∧ 128 ≤ n ∧ n < 2048
    ∨ more = 2 ∧ base = 224 ∧ 2048 ≤ n ∧ n < 65536
    ∨ more = 3 ∧ base = 240 ∧ 65536 ≤ n ∧ n < 1114112

theorem exists_utf8EncodeChar (c : Char) : ∃ base more,
    String.utf8EncodeChar c = sixBitBytes base more c.toNat ∧ IsMarked c.toNat base more := by
  have hvalid : c.toNat < 1114112 := by
    have h := c.valid
    simp only [UInt32.isValidChar, Nat.isValidChar] at h
    change c.val.toNat < _
    omega
  have hval : c.val.toNat = c.toNat := rfl
  unfold String.utf8EncodeChar IsMarked
  simp only [hval]
  split_ifs with h₁ h₂ h₃
  · exact ⟨0, 0, rfl, by omega⟩
  · refine ⟨192, 1, ?_, by omega⟩
    rw [Nat.mod_eq_of_lt (show c.toNat / 64 < 32 by omega)]
    rfl
  · refine ⟨224, 2, ?_, by omega⟩
    rw [Nat.mod_eq_of_lt (show c.toNat / 4096 < 16 by omega)]
    simp [sixBitBytes, Nat.div_div_eq_div_mul]
  · refine ⟨240, 3, ?_, by omega⟩
    rw [Nat.mod_eq_of_lt (show c.toNat / 262144 < 8 by omega)]
    simp [sixBitBytes, Nat.div_div_eq_div_mul]

/-- The leading byte of a character beyond ASCII is that of no other character. -/
theorem exists_lead_utf8EncodeChar (c : Char) : ∃ lead rest,
    String.utf8EncodeChar c = lead :: rest ∧ (lead.toNat = c.toNat ∨ 192 ≤ lead.toNat) := by
  obtain ⟨base, more, hc, hmarked⟩ := exists_utf8EncodeChar c
  obtain ⟨rest, hrest⟩ := exists_sixBitBytes base more c.toNat
  refine ⟨_, rest, hc.trans hrest, ?_⟩
  rw [UInt8.toNat_ofNat']
  rcases hmarked with ⟨rfl, rfl, hn⟩ | ⟨rfl, rfl, hn⟩ | ⟨rfl, rfl, hn⟩ | ⟨rfl, rfl, hn⟩ <;> omega

/-- Of two characters the greater one has the greater leading byte, or as many bytes. -/
theorem IsMarked.lead_lt {m n base base' more more' : ℕ} (hm : IsMarked m base more)
    (hn : IsMarked n base' more') (h : m < n) :
    n / 64 ^ more' + base' < 256
      ∧ (base = base' ∧ more = more' ∨ m / 64 ^ more + base < n / 64 ^ more' + base') := by
  rcases hm with ⟨rfl, rfl, hm⟩ | ⟨rfl, rfl, hm⟩ | ⟨rfl, rfl, hm⟩ | ⟨rfl, rfl, hm⟩ <;>
    rcases hn with ⟨rfl, rfl, hn⟩ | ⟨rfl, rfl, hn⟩ | ⟨rfl, rfl, hn⟩ | ⟨rfl, rfl, hn⟩ <;> omega

theorem below_utf8EncodeChar {c d : Char} (h : c < d) :
    Below (String.utf8EncodeChar c) (String.utf8EncodeChar d) := by
  have hlt : c.toNat < d.toNat := UInt32.lt_iff_toNat_lt.1 h
  obtain ⟨base, more, hc, hmarked⟩ := exists_utf8EncodeChar c
  obtain ⟨base', more', hd, hmarked'⟩ := exists_utf8EncodeChar d
  rw [hc, hd]
  obtain ⟨hbyte, ⟨rfl, rfl⟩ | hlead⟩ := hmarked.lead_lt hmarked' hlt
  · exact below_sixBitBytes hlt hbyte
  · obtain ⟨rest, hrest⟩ := exists_sixBitBytes base more c.toNat
    obtain ⟨rest', hrest'⟩ := exists_sixBitBytes base' more' d.toNat
    rw [hrest, hrest']
    exact below_cons (ofNat_lt_ofNat hlead hbyte) rest rest'

/-! ## Texts -/

theorem flatMap_utf8EncodeChar_lt {cs ds : List Char} (h : cs < ds) :
    cs.flatMap String.utf8EncodeChar < ds.flatMap String.utf8EncodeChar := by
  induction cs generalizing ds with
  | nil =>
    cases ds with
    | nil => exact absurd h (List.lt_irrefl _)
    | cons d ds =>
      obtain ⟨b, bs, hb⟩ := List.exists_cons_of_ne_nil (String.utf8EncodeChar_ne_nil (c := d))
      rw [List.flatMap_nil, List.flatMap_cons, hb]
      exact List.nil_lt_cons _ _
  | cons c cs ih =>
    cases ds with
    | nil => exact absurd h (List.not_lt_nil _)
    | cons d ds =>
      rw [List.flatMap_cons, List.flatMap_cons]
      rcases List.cons_lt_cons_iff.1 h with hlt | ⟨rfl, hrest⟩
      · exact below_utf8EncodeChar hlt _ _
      · exact List.append_left_lt (ih hrest)

theorem bytes_lt_iff {s t : String} : bytes s < bytes t ↔ s < t := by
  have hmono {s t : String} (h : s < t) : bytes s < bytes t := by
    rw [bytes_eq, bytes_eq]
    exact flatMap_utf8EncodeChar_lt h
  constructor
  · intro h
    rcases lt_trichotomy s t with hlt | rfl | hgt
    · exact hlt
    · exact absurd h (List.lt_irrefl _)
    · exact absurd h (List.lt_asymm (hmono hgt))
  · exact hmono

theorem bytes_le_iff {s t : String} : bytes s ≤ bytes t ↔ s ≤ t := by
  rw [← List.not_lt, bytes_lt_iff, not_lt]

end HomeScript.Text
