import Mathlib.Data.List.Basic
import Mathlib.Algebra.Order.Group.Int
import HomeScript.Number.Word

/-! # Numbers that fit into words

Digit by digit, a word holds the exact number until there is no room for the next digit, and from
then on there is none. So a word is read exactly if there is room for the whole number.
-/

namespace HomeScript.Number

theorem signedWord?_eq_some_iff {n : ℤ} {w : Int64} : signedWord? n = some w ↔ w.toInt = n := by
  have hmin : Int64.minValue.toInt = -2 ^ 63 := Int64.toInt_minValue
  have hmax : Int64.maxValue.toInt = 2 ^ 63 - 1 := Int64.toInt_maxValue
  unfold signedWord?
  constructor
  · intro h
    split at h
    · next hn =>
      obtain rfl := Option.some.inj h
      exact Int64.toInt_ofInt_of_le (by omega) (by omega)
    · cases h
  · rintro rfl
    have hlow := w.le_toInt
    have hhigh := w.toInt_lt
    rw [if_pos (by omega), Int64.ofInt_toInt]

theorem unsignedWord?_eq_some_iff {w : Int64} {u : UInt32} :
    unsignedWord? w = some u ↔ w.toInt = u.toNat := by
  unfold unsignedWord?
  constructor
  · intro h
    split at h
    · next hw =>
      obtain rfl := Option.some.inj h
      rw [UInt32.toNat_ofNat_of_lt' (by omega)]
      omega
    · cases h
  · intro h
    have hlt : u.toNat < UInt32.size := u.toNat_lt_size
    rw [if_pos (by omega), h, Int.toNat_natCast, UInt32.ofNat_toNat]

theorem le_ofDigitChars (ds : List Char) (n : ℕ) : n ≤ Nat.ofDigitChars 10 ds n := by
  induction ds generalizing n with
  | nil => exact le_rfl
  | cons c ds ih =>
    rw [Nat.ofDigitChars_cons]
    exact le_trans (by omega) (ih _)

theorem pushDigit_eq_some_iff {n : ℕ} {v w : Int64} (hv : v.toInt = n) (c : Char) :
    pushDigit v c = some w ↔ w.toInt = (10 * n + (c.toNat - '0'.toNat) : ℕ) := by
  rw [pushDigit, Option.bind_eq_bind, Option.bind_eq_some_iff]
  simp only [signedWord?_eq_some_iff, hv]
  constructor
  · rintro ⟨shifted, hs, hw⟩
    omega
  · intro hw
    have hlt := w.toInt_lt
    refine ⟨.ofInt (10 * n), ?_, ?_⟩
    · exact Int64.toInt_ofInt_of_le (by omega) (by omega)
    · rw [Int64.toInt_ofInt_of_le (by omega) (by omega)]
      omega

theorem foldlM_pushDigit_eq_some_iff {n : ℕ} {v w : Int64} (hv : v.toInt = n) (ds : List Char) :
    ds.foldlM pushDigit v = some w ↔ w.toInt = Nat.ofDigitChars 10 ds n := by
  induction ds generalizing n v with
  | nil =>
    have hinj : v = w ↔ w.toInt = v.toInt := by rw [eq_comm, Int64.toInt_inj]
    simp [hinj, hv]
  | cons c ds ih =>
    rw [List.foldlM_cons, Option.bind_eq_bind, Option.bind_eq_some_iff, Nat.ofDigitChars_cons]
    constructor
    · rintro ⟨u, hu, hw⟩
      exact (ih ((pushDigit_eq_some_iff hv c).1 hu)).1 hw
    · intro hw
      -- There is room for the digits so far, as there is for all of them.
      have hle := le_ofDigitChars ds (10 * n + (c.toNat - '0'.toNat))
      have hlt := w.toInt_lt
      have hu : (Int64.ofInt (10 * n + (c.toNat - '0'.toNat) : ℕ)).toInt
          = (10 * n + (c.toNat - '0'.toNat) : ℕ) :=
        Int64.toInt_ofInt_of_le (by omega) (by omega)
      exact ⟨_, (pushDigit_eq_some_iff hv c).2 hu, (ih hu).2 hw⟩

theorem word?_eq_some_iff {ds : List Char} {w : Int64} :
    word? ds = some w ↔ ds ≠ [] ∧ w.toInt = Nat.ofDigitChars 10 ds 0 := by
  cases ds with
  | nil => simp [word?]
  | cons c ds =>
    have hword : word? (c :: ds) = (c :: ds).foldlM pushDigit 0 := rfl
    rw [hword, foldlM_pushDigit_eq_some_iff (n := 0) rfl]
    simp

end HomeScript.Number
