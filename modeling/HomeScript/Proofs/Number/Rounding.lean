import Mathlib.Algebra.Order.Field.Power
import Mathlib.Algebra.Order.Field.Rat
import Mathlib.Tactic.FieldSimp
import Mathlib.Tactic.Linarith
import Mathlib.Tactic.NormNum
import Mathlib.Tactic.Positivity
import Mathlib.Tactic.Ring
import HomeScript.Number.Nearest
import HomeScript.Number.Shortest

/-! # Rounding

Every fraction in the range of a double is rounded to that double: the range ends half a last place
from the significand, or a quarter below a power of two, where the next lower double is nearer.
-/

namespace HomeScript

/-- The value without its sign. -/
def Decimal.value (d : Decimal) : ℚ :=
  d.units * (10 : ℚ) ^ d.exponent

namespace Double

/-! ## Powers with whole exponents -/

theorem zpow_eq_div (b : ℚ) (e : ℤ) : b ^ e = b ^ e.toNat / b ^ (-e).toNat := by
  obtain ⟨n, rfl | rfl⟩ := e.eq_nat_or_neg <;> simp [zpow_neg]

theorem two_zpow_pos (e : ℤ) : (0 : ℚ) < 2 ^ e :=
  zpow_pos (by norm_num) e

theorem ten_zpow_pos (e : ℤ) : (0 : ℚ) < 10 ^ e :=
  zpow_pos (by norm_num) e

theorem two_zpow_add_one (e : ℤ) : (2 : ℚ) ^ (e + 1) = 2 ^ e * 2 :=
  zpow_add_one₀ (by norm_num) e

theorem shiftLeft_div (num den : ℕ) (e : ℤ) :
    ((num <<< (-e).toNat : ℕ) : ℚ) / (den <<< e.toNat : ℕ) = num / den / 2 ^ e := by
  rw [zpow_eq_div 2 e, Nat.shiftLeft_eq, Nat.shiftLeft_eq]
  push_cast
  rw [div_div_div_eq]

/-! ## The parts of the rounding -/

theorem floorLog2_spec {num den : ℕ} (hn : num ≠ 0) (hd : den ≠ 0) :
    (2 : ℚ) ^ floorLog2 num den ≤ num / den ∧ (num : ℚ) / den < 2 ^ (floorLog2 num den + 1) := by
  have hdq : (0 : ℚ) < den := by positivity
  have hn₁ : (2 : ℚ) ^ (num.log2 : ℤ) ≤ num := mod_cast Nat.log2_self_le hn
  have hn₂ : (num : ℚ) < 2 ^ ((num.log2 : ℤ) + 1) := mod_cast Nat.lt_log2_self
  have hd₁ : (2 : ℚ) ^ (den.log2 : ℤ) ≤ den := mod_cast Nat.log2_self_le hd
  have hd₂ : (den : ℚ) < 2 ^ ((den.log2 : ℤ) + 1) := mod_cast Nat.lt_log2_self
  generalize ha : (num.log2 : ℤ) = a at hn₁ hn₂
  generalize hb : (den.log2 : ℤ) = b at hd₁ hd₂
  have hle : den <<< (a - b).toNat ≤ num <<< (-(a - b)).toNat ↔ (2 : ℚ) ^ (a - b) ≤ num / den := by
    have h := shiftLeft_div num den (a - b)
    have hp : (0 : ℚ) < (den <<< (a - b).toNat : ℕ) := by
      rw [Nat.shiftLeft_eq]; positivity
    rw [← one_le_div (two_zpow_pos _), ← h, one_le_div hp, Nat.cast_le]
  have hup : (num : ℚ) / den < 2 ^ (a - b + 1) := by
    rw [div_lt_iff₀ hdq]
    calc (num : ℚ) < 2 ^ (a + 1) := hn₂
      _ = 2 ^ (a - b + 1) * 2 ^ b := by rw [← zpow_add₀ (by norm_num)]; congr 1; omega
      _ ≤ 2 ^ (a - b + 1) * den := by gcongr
  have hlow : (2 : ℚ) ^ (a - b - 1) ≤ num / den := by
    rw [le_div_iff₀ hdq]
    calc (2 : ℚ) ^ (a - b - 1) * den ≤ 2 ^ (a - b - 1) * 2 ^ (b + 1) := by gcongr
      _ = 2 ^ a := by rw [← zpow_add₀ (by norm_num)]; congr 1; omega
      _ ≤ num := hn₁
  have hdef : floorLog2 num den
      = if den <<< (a - b).toNat ≤ num <<< (-(a - b)).toNat then a - b else a - b - 1 := by
    rw [floorLog2, ha, hb]
  rw [hdef]
  split
  · next h => exact ⟨hle.1 h, hup⟩
  · next h => exact ⟨hlow, by simpa using not_le.1 (mt hle.2 h)⟩

/-- A fraction is rounded to a whole number at most one half away, if that is even or nearer. -/
theorem roundDiv_eq {num den m : ℕ} (hd : 0 < den) (hlow : (m : ℚ) - 1 / 2 ≤ num / den)
    (hhigh : (num : ℚ) / den ≤ m + 1 / 2)
    (htie : m % 2 = 0 ∨ (m : ℚ) - 1 / 2 < num / den ∧ (num : ℚ) / den < m + 1 / 2) :
    roundDiv num den = m := by
  have hdq : (0 : ℚ) < den := by positivity
  rw [le_div_iff₀ hdq] at hlow
  rw [div_le_iff₀ hdq] at hhigh
  rw [lt_div_iff₀ hdq, div_lt_iff₀ hdq] at htie
  have hl : 2 * (den * m) ≤ 2 * num + den := by
    have : (2 * (den * m) : ℚ) ≤ 2 * num + den := by linarith
    exact_mod_cast this
  have hh : 2 * num ≤ 2 * (den * m) + den := by
    have : (2 * num : ℚ) ≤ 2 * (den * m) + den := by linarith
    exact_mod_cast this
  have ht : m % 2 = 0 ∨ 2 * (den * m) < 2 * num + den ∧ 2 * num < 2 * (den * m) + den := by
    refine htie.imp_right ?_
    rintro ⟨h₁, h₂⟩
    constructor
    · have : (2 * (den * m) : ℚ) < 2 * num + den := by linarith
      exact_mod_cast this
    · have : (2 * num : ℚ) < 2 * (den * m) + den := by linarith
      exact_mod_cast this
  have hq := Nat.div_add_mod num den
  have hr := Nat.mod_lt num hd
  have hm : m = num / den ∨ m = num / den + 1 := by
    have h₁ : den * m < den * (num / den + 2) := by rw [Nat.mul_add]; omega
    have h₂ : den * (num / den) < den * (m + 1) := by rw [Nat.mul_add]; omega
    have := Nat.lt_of_mul_lt_mul_left h₁
    have := Nat.lt_of_mul_lt_mul_left h₂
    omega
  simp only [roundDiv, Bool.or_eq_true, Bool.and_eq_true, decide_eq_true_eq, beq_iff_eq]
  rcases hm with rfl | rfl
  · rw [if_pos]; omega
  · rw [Nat.mul_add] at hl hh ht
    rw [if_neg]; omega

/-- Between these bounds, all doubles are one apart at this scale. -/
theorem magnitudeOf_eq {num den m : ℕ} {s : ℤ} (hd : 0 < den) (hs : -1074 ≤ s)
    (hpos : (0 : ℚ) < num / den) (hbase : (2 : ℚ) ^ 52 * 2 ^ s ≤ num / den ∨ s = -1074)
    (htop : (num : ℚ) / den < 2 ^ 53 * 2 ^ s)
    (hlow : ((m : ℚ) - 1 / 2) * 2 ^ s ≤ num / den)
    (hhigh : (num : ℚ) / den ≤ (m + 1 / 2) * 2 ^ s)
    (htie : m % 2 = 0
      ∨ ((m : ℚ) - 1 / 2) * 2 ^ s < num / den ∧ (num : ℚ) / den < (m + 1 / 2) * 2 ^ s) :
    magnitudeOf num den = min ((s + 1074).toNat <<< 52 + m) infiniteMagnitude := by
  have hn : num ≠ 0 := by rintro rfl; simp at hpos
  obtain ⟨h₁, h₂⟩ := floorLog2_spec hn hd.ne'
  have hscale : max (floorLog2 num den - 52) (-1074) = s := by
    have hlt : floorLog2 num den < s + 53 := by
      rw [← zpow_lt_zpow_iff_right₀ (by norm_num : (1 : ℚ) < 2)]
      refine lt_of_le_of_lt h₁ (lt_of_lt_of_eq htop ?_)
      rw [zpow_add₀ (by norm_num), mul_comm]; norm_cast
    rcases hbase with hbase | rfl
    · have hle : s + 52 < floorLog2 num den + 1 := by
        rw [← zpow_lt_zpow_iff_right₀ (by norm_num : (1 : ℚ) < 2)]
        refine lt_of_eq_of_lt ?_ (lt_of_le_of_lt hbase h₂)
        rw [zpow_add₀ (by norm_num), mul_comm]; norm_cast
      omega
    · omega
  have hp := two_zpow_pos s
  have hround : roundDiv (num <<< (-s).toNat) (den <<< s.toNat) = m := by
    refine roundDiv_eq (by rw [Nat.shiftLeft_eq]; positivity) ?_ ?_ ?_ <;> rw [shiftLeft_div]
    · rwa [le_div_iff₀ hp]
    · rwa [div_le_iff₀ hp]
    · rwa [lt_div_iff₀ hp, div_lt_iff₀ hp]
  rw [magnitudeOf, if_neg hn]
  simp only [hscale, hround]

/-! ## Doubles and their ranges -/

/-- The bits without the sign. -/
def magnitude (x : Double) : ℕ :=
  x.exponentField <<< 52 + x.fractionField

theorem fractionField_lt (x : Double) : x.fractionField < 2 ^ 52 :=
  Nat.mod_lt _ (by norm_num)

theorem magnitude_eq_mod (x : Double) : x.magnitude = x.bits.toNat % 2 ^ 63 := by
  simp only [magnitude, exponentField, fractionField, Nat.shiftLeft_eq, Nat.shiftRight_eq_div_pow]
  omega

theorem ofMagnitude_magnitude (x : Double) : ofMagnitude x.isNegative x.magnitude = x := by
  have hx := x.bits.toNat_lt
  have hbits : (if x.isNegative then 1 <<< 63 + x.magnitude else x.magnitude) = x.bits.toNat := by
    simp only [isNegative, magnitude_eq_mod, Nat.shiftLeft_eq, decide_eq_true_eq]
    split <;> omega
  rw [ofMagnitude, hbits]
  simp

theorem magnitude_lt {x : Double} (h : x.isFinite) : x.magnitude < infiniteMagnitude := by
  have := x.fractionField_lt
  simp only [isFinite, decide_eq_true_eq] at h
  simp only [magnitude, infiniteMagnitude, Nat.shiftLeft_eq]
  omega

theorem le_scale (x : Double) : -1074 ≤ x.scale := by
  simp only [scale]; omega

theorem scale_le {x : Double} (h : x.isFinite) : x.scale ≤ 971 := by
  simp only [isFinite, decide_eq_true_eq] at h
  simp only [scale]; omega

theorem significand_lt (x : Double) : x.significand < 2 ^ 53 := by
  have := x.fractionField_lt
  simp only [significand, Nat.shiftLeft_eq]
  split <;> omega

theorem magnitude_eq (x : Double) :
    x.magnitude = (x.scale + 1074).toNat <<< 52 + x.significand := by
  simp only [magnitude, significand, scale, Nat.shiftLeft_eq]
  split <;> omega

/-- Only at the lowest scale are there doubles below the power of two at its start. -/
theorem le_significand {x : Double} (h : x.scale ≠ -1074) : 2 ^ 52 ≤ x.significand := by
  simp only [scale] at h
  simp only [significand, Nat.shiftLeft_eq]
  split <;> omega

/-- A value that lies in a range. -/
def Range.Covers (r : Range) (v : ℚ) : Prop :=
  if r.closed then r.low * (2 : ℚ) ^ r.scale ≤ v ∧ v ≤ r.high * (2 : ℚ) ^ r.scale
  else r.low * (2 : ℚ) ^ r.scale < v ∧ v < r.high * (2 : ℚ) ^ r.scale

theorem Range.Covers.le {r : Range} {v : ℚ} (h : r.Covers v) :
    r.low * (2 : ℚ) ^ r.scale ≤ v ∧ v ≤ r.high * (2 : ℚ) ^ r.scale := by
  unfold Covers at h
  split at h
  · exact h
  · exact ⟨h.1.le, h.2.le⟩

/-- What lies below a power of two is nearer to it than half a last place. -/
def isBoundary (x : Double) : Bool :=
  x.fractionField = 0 && 1 < x.exponentField

theorem isBoundary_iff (x : Double) :
    x.isBoundary ↔ x.significand = 2 ^ 52 ∧ x.scale ≠ -1074 := by
  have := x.fractionField_lt
  simp only [isBoundary, significand, scale, Nat.shiftLeft_eq, Bool.and_eq_true, decide_eq_true_eq]
  split <;> omega

theorem range_high (x : Double) :
    (x.range.high : ℚ) * 2 ^ x.range.scale = (x.significand + 1 / 2) * 2 ^ x.scale := by
  simp only [range, zpow_sub₀ (two_ne_zero' ℚ)]
  push_cast
  ring

theorem range_low {x : Double} (h : 0 < x.significand) :
    (x.range.low : ℚ) * 2 ^ x.range.scale
      = (x.significand - if x.isBoundary then 1 / 4 else 1 / 2) * 2 ^ x.scale := by
  have hlow : (x.range.low : ℚ) = 4 * x.significand - if x.isBoundary then 1 else 2 := by
    simp only [range, isBoundary]
    rw [Nat.cast_sub (by split <;> omega)]
    push_cast
    rfl
  rw [hlow]
  simp only [range, zpow_sub₀ (two_ne_zero' ℚ)]
  split <;> push_cast <;> ring

theorem Range.Covers.pos {x : Double} {v : ℚ} (h : x.range.Covers v) (hs : 0 < x.significand) :
    0 < v := by
  have hlow := h.le.1
  rw [range_low hs] at hlow
  have h₁ : (1 : ℚ) ≤ x.significand := mod_cast hs
  refine lt_of_lt_of_le (mul_pos ?_ (two_zpow_pos _)) hlow
  split <;> linarith

theorem Range.Covers.tie {x : Double} {v : ℚ} (h : x.range.Covers v) :
    x.significand % 2 = 0 ∨ x.range.low * (2 : ℚ) ^ x.range.scale < v
      ∧ v < x.range.high * (2 : ℚ) ^ x.range.scale := by
  unfold Covers at h
  split at h
  · next hc => exact .inl (by simpa [range] using hc)
  · exact .inr h

/-- What lies in the range of a double is rounded to it. -/
theorem magnitudeOf_of_covers {x : Double} {num den : ℕ} (hx : x.isFinite)
    (hs : 0 < x.significand) (hd : 0 < den) (h : x.range.Covers ((num : ℚ) / den)) :
    magnitudeOf num den = x.magnitude := by
  obtain ⟨hlow, hhigh⟩ := h.le
  have hpos := h.pos hs
  have htie := h.tie
  rw [range_low hs] at hlow htie
  rw [range_high] at hhigh htie
  have hp := two_zpow_pos x.scale
  have hmin := min_eq_left (magnitude_lt hx).le
  have hfit : (x.significand : ℚ) + 1 ≤ 2 ^ 53 := mod_cast x.significand_lt
  have hscale := x.le_scale
  by_cases hbase : (2 : ℚ) ^ 52 * 2 ^ x.scale ≤ num / den ∨ x.scale = -1074
  · have hmono : ((x.significand : ℚ) - 1 / 2) * 2 ^ x.scale
        ≤ (x.significand - if x.isBoundary then 1 / 4 else 1 / 2) * 2 ^ x.scale := by
      gcongr
      split <;> norm_num
    rw [magnitudeOf_eq hd hscale hpos hbase ?_ (hmono.trans hlow) hhigh
      (htie.imp_right fun ht => ⟨hmono.trans_lt ht.1, ht.2⟩), ← magnitude_eq, hmin]
    refine hhigh.trans_lt ?_
    gcongr
    linarith
  · -- The fraction lies below the power of two that the double is, so at the next lower scale.
    obtain ⟨hbelow, hne⟩ := not_or.1 hbase
    have hS : x.significand = 2 ^ 52 := by
      have h₁ := hlow.trans_lt (not_le.1 hbelow)
      have h₂ := lt_of_mul_lt_mul_right h₁ hp.le
      have h₃ : (x.significand : ℚ) < 2 ^ 52 + 1 := by split at h₂ <;> linarith
      have h₄ : x.significand < 2 ^ 52 + 1 := mod_cast h₃
      have := le_significand hne
      omega
    have hb : x.isBoundary := x.isBoundary_iff.2 ⟨hS, hne⟩
    rw [hS, if_pos hb] at hlow
    have hhalf : (2 : ℚ) ^ x.scale = 2 ^ (x.scale - 1) * 2 := by
      rw [← two_zpow_add_one, sub_add_cancel]
    rw [hhalf] at hlow hbelow
    have hq := two_zpow_pos (x.scale - 1)
    have hcarry : ((x.scale - 1 + 1074).toNat <<< 52 + 2 ^ 53) = x.magnitude := by
      rw [magnitude_eq, hS, Nat.shiftLeft_eq, Nat.shiftLeft_eq]
      omega
    push_cast at hlow hbelow
    rw [magnitudeOf_eq (m := 2 ^ 53) (s := x.scale - 1) hd (by omega) hpos (.inl ?_) ?_ ?_ ?_
      (.inl rfl), hcarry, hmin]
    all_goals push_cast
    all_goals nlinarith

end Double
end HomeScript
