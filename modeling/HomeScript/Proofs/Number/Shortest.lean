import Mathlib.Tactic.GCongr
import HomeScript.Proofs.Number.Rounding

/-! # Shortest digits read back

The search for the shortest digits of a double ends on a grid that is finer than the range of the
double, so that what it finds lies in the range and is rounded to the double again.
-/

namespace HomeScript.Double

/-! ## Grids -/

theorem scaling_spec (b d : ℤ) : ∃ k : ℚ, 0 < k ∧ ((scaling b d).1 : ℚ) = 2 ^ b * k
    ∧ ((scaling b d).2 : ℚ) = 10 ^ d * k := by
  refine ⟨10 ^ (-d).toNat * 2 ^ (-b).toNat, by positivity, ?_, ?_⟩
  · simp only [scaling, Nat.shiftLeft_eq, Nat.pow_eq, zpow_eq_div 2 b]
    push_cast
    field_simp
  · simp only [scaling, Nat.shiftLeft_eq, Nat.pow_eq, zpow_eq_div 10 d]
    push_cast
    field_simp

namespace Range
variable {r : Range} {tie : Tie} {units : ℕ} {exponent : ℤ}

theorem contains_iff : r.contains units exponent ↔ r.Covers (units * (10 : ℚ) ^ exponent) := by
  obtain ⟨k, hk, hb, hd⟩ := scaling_spec r.scale exponent
  have hle (n : ℕ) : n * (scaling r.scale exponent).1 ≤ units * (scaling r.scale exponent).2
      ↔ n * (2 : ℚ) ^ r.scale ≤ units * 10 ^ exponent := by
    rw [← Nat.cast_le (α := ℚ)]
    push_cast
    rw [hb, hd, ← mul_assoc, ← mul_assoc, mul_le_mul_iff_left₀ hk]
  have hge (n : ℕ) : units * (scaling r.scale exponent).2 ≤ n * (scaling r.scale exponent).1
      ↔ units * (10 : ℚ) ^ exponent ≤ n * 2 ^ r.scale := by
    rw [← Nat.cast_le (α := ℚ)]
    push_cast
    rw [hb, hd, ← mul_assoc, ← mul_assoc, mul_le_mul_iff_left₀ hk]
  unfold contains Covers
  simp only
  split
  · simp only [Bool.and_eq_true, decide_eq_true_eq, hle, hge]
  · simp only [Bool.and_eq_true, decide_eq_true_eq, ← not_le, hle, hge]

theorem covers_of_onGrid (h : r.onGrid tie exponent = some units) :
    r.Covers (units * (10 : ℚ) ^ exponent) := by
  rw [← contains_iff]
  unfold onGrid at h
  simp only at h
  split at h
  · next hbelow habove =>
    split at h <;> obtain rfl := Option.some.inj h
    · exact hbelow
    · exact habove
  · next hbelow _ => exact Option.some.inj h ▸ hbelow
  · next _ habove => exact Option.some.inj h ▸ habove
  · cases h

/-- The next point of the grid above the double. -/
def above (r : Range) (exponent : ℤ) : ℕ :=
  r.value * (scaling r.scale exponent).1 / (scaling r.scale exponent).2 + 1

theorem onGrid_isSome (h : r.contains (r.above exponent) exponent) :
    (r.onGrid tie exponent).isSome := by
  unfold above at h
  unfold onGrid
  simp only [h]
  split <;> simp_all
  split <;> rfl

theorem lt_above (r : Range) (exponent : ℤ) :
    r.value * (2 : ℚ) ^ r.scale < r.above exponent * 10 ^ exponent
      ∧ r.above exponent * (10 : ℚ) ^ exponent ≤ r.value * 2 ^ r.scale + 10 ^ exponent := by
  obtain ⟨k, hk, hb, hd⟩ := scaling_spec r.scale exponent
  have hpos : 0 < (scaling r.scale exponent).2 := by
    have : (0 : ℚ) < (scaling r.scale exponent).2 := hd ▸ mul_pos (ten_zpow_pos _) hk
    exact_mod_cast this
  have hlt := Nat.lt_mul_div_succ (r.value * (scaling r.scale exponent).1) hpos
  have hle := Nat.mul_div_le (r.value * (scaling r.scale exponent).1) (scaling r.scale exponent).2
  rw [← Nat.cast_lt (α := ℚ)] at hlt
  rw [← Nat.cast_le (α := ℚ)] at hle
  unfold above
  push_cast at hlt hle ⊢
  rw [hb, hd] at hlt hle
  constructor <;> nlinarith

/-- The search ends on some grid on which the range has a point. -/
theorem covers_search {k tries : ℕ} (hk : k ≤ tries)
    (h : (r.onGrid tie (exponent - k)).isSome) :
    r.Covers ((r.search tie exponent tries).1 * (10 : ℚ) ^ (r.search tie exponent tries).2) := by
  induction tries generalizing exponent k with
  | zero =>
    obtain rfl : k = 0 := by omega
    obtain ⟨units, hu⟩ := Option.isSome_iff_exists.1 h
    rw [Int.natCast_zero, sub_zero] at hu
    simpa [search, hu] using covers_of_onGrid hu
  | succ tries ih =>
    rw [search]
    split
    · next hu => exact covers_of_onGrid hu
    · next hu =>
      cases k with
      | zero => simp [hu] at h
      | succ k => exact ih (by omega : k ≤ tries) (by convert h using 3; omega)

end Range

theorem ten_zpow_lt_two_zpow {k s : ℤ} (h : if 0 ≤ k then 10 * k < 3 * s else 93 * k < 28 * s) :
    (10 : ℚ) ^ k < 2 ^ s := by
  split at h
  · next hk =>
    refine lt_of_pow_lt_pow_left₀ 3 (two_zpow_pos s).le ?_
    calc ((10 : ℚ) ^ k) ^ 3 = (10 ^ 3) ^ k := by rw [← zpow_natCast, zpow_comm]; norm_num
      _ ≤ (2 ^ 10) ^ k := zpow_le_zpow_left₀ hk (by norm_num) (by norm_num)
      _ = 2 ^ (10 * k) := by rw [zpow_mul]; norm_num
      _ < 2 ^ (3 * s) := zpow_lt_zpow_right₀ (by norm_num) h
      _ = (2 ^ s) ^ 3 := by rw [mul_comm, zpow_mul]; norm_cast
  · next hk =>
    refine lt_of_pow_lt_pow_left₀ 28 (two_zpow_pos s).le ?_
    calc ((10 : ℚ) ^ k) ^ 28 = (10 ^ 28) ^ k := by rw [← zpow_natCast, zpow_comm]; norm_num
      _ ≤ (2 ^ 93) ^ k := by
        rw [← inv_le_inv₀ (by positivity) (by positivity), ← zpow_neg, ← zpow_neg]
        exact zpow_le_zpow_left₀ (by omega) (by norm_num) (by norm_num)
      _ = 2 ^ (93 * k) := by rw [zpow_mul]; norm_num
      _ < 2 ^ (28 * s) := zpow_lt_zpow_right₀ (by norm_num) h
      _ = (2 ^ s) ^ 28 := by rw [mul_comm, zpow_mul]; norm_cast

/-- The points of the last grid are less than half a last place of the double apart. -/
theorem ten_zpow_lastExponent_lt {x : Double} (hx : x.isFinite) (hs : 0 < x.significand) :
    (10 : ℚ) ^ (x.topExponent - 20) < 2 ^ (x.scale - 1) := by
  have hlog : x.significand.log2 < 53 := (Nat.log2_lt hs.ne').2 x.significand_lt
  have := x.le_scale
  have := scale_le hx
  refine ten_zpow_lt_two_zpow ?_
  unfold topExponent
  split <;> omega

theorem onGrid_lastExponent {x : Double} (hx : x.isFinite) (hs : 0 < x.significand) (tie : Tie) :
    (x.range.onGrid tie (x.topExponent - 20)).isSome := by
  refine Range.onGrid_isSome (Range.contains_iff.2 ?_)
  obtain ⟨hlt, hle⟩ := x.range.lt_above (x.topExponent - 20)
  have hfine := ten_zpow_lastExponent_lt hx hs
  have hhalf : (2 : ℚ) ^ x.scale = 2 ^ (x.scale - 1) * 2 := by
    rw [← two_zpow_add_one, sub_add_cancel]
  have hvalue : (x.range.value : ℚ) * 2 ^ x.range.scale = x.significand * 2 ^ x.scale := by
    simp only [range, zpow_sub₀ (two_ne_zero' ℚ)]
    push_cast
    ring
  rw [hvalue] at hlt hle
  have hlow : (x.range.low : ℚ) * 2 ^ x.range.scale
      < x.range.above (x.topExponent - 20) * 10 ^ (x.topExponent - 20) := by
    refine lt_of_lt_of_le ?_ hlt.le
    rw [range_low hs]
    have := two_zpow_pos x.scale
    gcongr
    split <;> norm_num
  have hhigh : (x.range.above (x.topExponent - 20) : ℚ) * 10 ^ (x.topExponent - 20)
      < x.range.high * 2 ^ x.range.scale := by
    rw [range_high]
    linarith
  unfold Range.Covers
  split
  · exact ⟨hlow.le, hhigh.le⟩
  · exact ⟨hlow, hhigh⟩

theorem covers_shortest {x : Double} (hx : x.isFinite) (hs : 0 < x.significand) (tie : Tie) :
    x.range.Covers (x.shortest tie).value := by
  rw [shortest, if_neg hs.ne']
  exact Range.covers_search le_rfl (onGrid_lastExponent hx hs tie)

/-! ## Reading -/

theorem digits_bounds {d : Decimal} (h : d.units ≠ 0) :
    (10 : ℚ) ^ (d.point - 1) ≤ d.value ∧ d.value < 10 ^ d.point := by
  have hpos : 0 < d.digits.length := Nat.length_toDigits_pos
  have hup : d.units < 10 ^ d.digits.length :=
    (Nat.length_toDigits_le_iff (by norm_num) hpos).1 le_rfl
  have hlow : 10 ^ (d.digits.length - 1) ≤ d.units := by
    by_cases h₁ : d.digits.length - 1 = 0
    · rw [h₁]; exact Nat.one_le_iff_ne_zero.2 h
    · by_contra! hlt
      have := (Nat.length_toDigits_le_iff (by norm_num) (by omega)).2 hlt
      unfold Decimal.digits at h₁
      unfold Decimal.digits at this
      omega
  have hpoint : d.point - 1 = (d.digits.length - 1 : ℕ) + d.exponent := by
    unfold Decimal.point; omega
  have he := ten_zpow_pos d.exponent
  have hup' : (d.units : ℚ) < 10 ^ d.digits.length := mod_cast hup
  have hlow' : (10 : ℚ) ^ (d.digits.length - 1) ≤ d.units := mod_cast hlow
  unfold Decimal.value
  rw [hpoint, Decimal.point, zpow_add₀ (by norm_num), zpow_add₀ (by norm_num), zpow_natCast,
    zpow_natCast]
  constructor <;> gcongr

theorem fraction_eq_value (d : Decimal) :
    ((d.units * Nat.pow 10 d.exponent.toNat : ℕ) : ℚ) / (Nat.pow 10 (-d.exponent).toNat : ℕ)
      = d.value := by
  rw [Decimal.value, zpow_eq_div 10 d.exponent, Nat.pow_eq, Nat.pow_eq]
  push_cast
  rw [mul_div_assoc]

theorem covers_bounds {x : Double} {v : ℚ} (hx : x.isFinite) (hs : 0 < x.significand)
    (h : x.range.Covers v) : (2 : ℚ) ^ (-1075 : ℤ) ≤ v ∧ v ≤ 2 ^ (1024 : ℤ) := by
  obtain ⟨hlow, hhigh⟩ := h.le
  rw [range_low hs] at hlow
  rw [range_high] at hhigh
  have h₁ : (1 : ℚ) ≤ x.significand := mod_cast hs
  have h₂ : (x.significand : ℚ) + 1 ≤ 2 ^ (53 : ℤ) := mod_cast x.significand_lt
  have hhalf : (1 / 2 : ℚ) ≤ x.significand - if x.isBoundary then 1 / 4 else 1 / 2 := by
    split <;> linarith only [h₁]
  have hmin : (2 : ℚ) ^ (-1074 : ℤ) ≤ 2 ^ x.scale := zpow_le_zpow_right₀ (by norm_num) x.le_scale
  have hmax : (2 : ℚ) ^ x.scale ≤ 2 ^ (971 : ℤ) := zpow_le_zpow_right₀ (by norm_num) (scale_le hx)
  constructor
  · calc (2 : ℚ) ^ (-1075 : ℤ) = 1 / 2 * 2 ^ (-1075 + 1 : ℤ) := by rw [two_zpow_add_one]; ring
      _ ≤ (x.significand - if x.isBoundary then 1 / 4 else 1 / 2) * 2 ^ x.scale :=
        mul_le_mul hhalf hmin (two_zpow_pos _).le (le_trans (by norm_num) hhalf)
      _ ≤ v := hlow
  · calc v ≤ (x.significand + 1 / 2) * 2 ^ x.scale := hhigh
      _ ≤ 2 ^ (53 : ℤ) * 2 ^ (971 : ℤ) :=
        mul_le_mul (by linarith only [h₂]) hmax (two_zpow_pos _).le (two_zpow_pos _).le
      _ = 2 ^ (53 + 971 : ℤ) := (zpow_add₀ (by norm_num) _ _).symm

/-- A decimal in the range of a double is within the bounds on powers of ten. -/
theorem point_bounds {x : Double} {d : Decimal} (hx : x.isFinite) (hs : 0 < x.significand)
    (h : x.range.Covers d.value) : d.units ≠ 0 ∧ -400 ≤ d.point ∧ d.point ≤ 400 := by
  have hu : d.units ≠ 0 := by
    intro hu
    have := h.pos hs
    simp [Decimal.value, hu] at this
  obtain ⟨hmin, hmax⟩ := covers_bounds hx hs h
  obtain ⟨hlow, hup⟩ := digits_bounds hu
  refine ⟨hu, ?_, ?_⟩ <;> by_contra! hlt
  · have hsmall : (10 : ℚ) ^ d.point ≤ 10 ^ (-400 : ℤ) := zpow_le_zpow_right₀ (by norm_num) hlt.le
    have hlt : (10 : ℚ) ^ (-400 : ℤ) < 2 ^ (-1075 : ℤ) := ten_zpow_lt_two_zpow (by norm_num)
    exact absurd (hup.trans_le hsmall) (not_lt.2 (hlt.le.trans hmin))
  · have hlarge : (10 : ℚ) ^ (400 : ℤ) ≤ 10 ^ (d.point - 1) :=
      zpow_le_zpow_right₀ (by norm_num) (by omega)
    have hlt : (2 : ℚ) ^ (1024 : ℤ) < 10 ^ (400 : ℤ) :=
      calc
        (2 : ℚ) ^ (1024 : ℤ) ≤ 2 ^ (3 * 400 : ℤ) :=
          zpow_le_zpow_right₀ (by norm_num) (by norm_num)
        _ = (2 ^ (3 : ℤ)) ^ (400 : ℤ) := zpow_mul _ _ _
        _ < 10 ^ (400 : ℤ) := zpow_lt_zpow_left₀ (by norm_num) (by norm_num) (by norm_num)
    exact absurd (hlarge.trans hlow) (not_le.2 (hmax.trans_lt hlt))

theorem ofDecimal_of_covers {x : Double} {d : Decimal} (hx : x.isFinite) (hs : 0 < x.significand)
    (hn : d.negative = x.isNegative) (h : x.range.Covers d.value) : ofDecimal d = x := by
  obtain ⟨hu, hp₁, hp₂⟩ := point_bounds hx hs h
  rw [ofDecimal, if_neg hu, if_neg (by omega), if_neg (by omega), ofFraction, hn,
    magnitudeOf_of_covers hx hs (Nat.pos_of_ne_zero (by simp)) (fraction_eq_value d ▸ h),
    ofMagnitude_magnitude]

theorem magnitude_of_significand_zero {x : Double} (h : x.significand = 0) : x.magnitude = 0 := by
  have hs : x.scale = -1074 := by
    by_contra hne
    have := le_significand hne
    omega
  rw [magnitude_eq, hs, h]
  rfl

/-- However they are written, the shortest digits of a finite double read back as that double. -/
theorem ofDecimal_of_value_eq {x : Double} {tie : Tie} {d : Decimal} (hx : x.isFinite)
    (hn : d.negative = x.isNegative) (hv : d.value = (x.shortest tie).value) : ofDecimal d = x := by
  rcases Nat.eq_zero_or_pos x.significand with hs | hs
  · have hd : d.units = 0 := by
      rw [shortest, if_pos hs] at hv
      simpa [Decimal.value, (ten_zpow_pos d.exponent).ne'] using hv
    rw [ofDecimal, if_pos hd, hn, ← magnitude_of_significand_zero hs, ofMagnitude_magnitude]
  · exact ofDecimal_of_covers hx hs hn (hv ▸ covers_shortest hx hs tie)

theorem negative_shortest (x : Double) (tie : Tie) :
    (x.shortest tie).negative = x.isNegative := by
  unfold shortest
  split <;> rfl

end HomeScript.Double
