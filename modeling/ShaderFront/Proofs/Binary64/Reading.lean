import ShaderFront.Binary64.Reading
import ShaderFront.Proofs.Binary64.Shortest

/-!
# Decimals are read as what they round to

A decimal that a user types is read as the double nearest to it. Its digits and its power of ten may
be of any size: what is settled by their sizes alone is far above or far below all doubles.
-/

namespace ShaderFront.Binary64

variable {x : Binary64}

/-- What rounds to a positive number is neither too small nor too large. -/
theorem RoundsTo.bounds {q : ℚ} (h : RoundsTo q x) (hfinite : x.isFinite = true)
    (hzero : x.isZero = false) : (2 : ℚ) ^ (-1075 : ℤ) ≤ q ∧ q ≤ 2 ^ (1024 : ℤ) := by
  have hone : (1 : ℚ) ≤ x.significand := by exact_mod_cast significand_pos hzero
  have hlt : (x.significand : ℚ) + 1 ≤ 2 ^ (53 : ℤ) := by
    rw [← two_leadingBit]
    exact_mod_cast x.significand_lt
  have hunit : (0 : ℚ) < 2 ^ x.exponent := zpow_pos two_pos _
  constructor
  · have hhalf : (1 / 2 : ℚ) ≤ q / 2 ^ x.exponent := by
      have hlow := h.low
      split_ifs at hlow <;> linarith
    calc (2 : ℚ) ^ (-1075 : ℤ) ≤ 2 ^ (x.exponent - 1) :=
          zpow_le_zpow_right₀ one_le_two (by have := x.le_exponent; omega)
      _ = 1 / 2 * 2 ^ x.exponent := by rw [zpow_sub_one₀ two_ne_zero]; ring
      _ ≤ q := (le_div_iff₀ hunit).1 hhalf
  · have hunits : q / 2 ^ x.exponent ≤ 2 ^ (53 : ℤ) := by
      have hhigh := h.high
      linarith
    calc q ≤ 2 ^ (53 : ℤ) * 2 ^ x.exponent := (div_le_iff₀ hunit).1 hunits
      _ = 2 ^ (53 + x.exponent) := (zpow_add₀ two_ne_zero _ _).symm
      _ ≤ 2 ^ (1024 : ℤ) := by
          have hexponent := exponent_le hfinite
          exact zpow_le_zpow_right₀ one_le_two (by omega)

section

variable {digits : ℕ} {e : ℤ}

theorem log2_bounds (hdigits : digits ≠ 0) :
    (2 : ℚ) ^ (digits.log2 : ℤ) ≤ digits ∧ (digits : ℚ) < 2 ^ ((digits.log2 : ℤ) + 1) := by
  constructor
  · rw [zpow_natCast]
    exact_mod_cast Nat.log2_self_le hdigits
  · rw [← Nat.cast_succ, zpow_natCast]
    exact_mod_cast Nat.lt_log2_self

/-- A decimal that is settled as zero is too small. -/
theorem decimal_small (hdigits : digits ≠ 0) (h : e + (digits.log2 : ℤ) < -1100) :
    (digits : ℚ) * 10 ^ e < 2 ^ (-1075 : ℤ) := by
  have hpower : (10 : ℚ) ^ e ≤ 2 ^ e := pow_ten_le_pow_two (by omega) (by omega)
  calc (digits : ℚ) * 10 ^ e ≤ digits * 2 ^ e := by gcongr
    _ < 2 ^ ((digits.log2 : ℤ) + 1) * 2 ^ e := by
        have hlt := (log2_bounds hdigits).2
        gcongr
    _ = 2 ^ ((digits.log2 : ℤ) + 1 + e) := (zpow_add₀ two_ne_zero _ _).symm
    _ ≤ 2 ^ (-1075 : ℤ) := zpow_le_zpow_right₀ one_le_two (by omega)

/-- A decimal that is settled as infinity is too large. -/
theorem decimal_large (hdigits : digits ≠ 0) (h : 1100 < e + (digits.log2 : ℤ) / 4) :
    (2 : ℚ) ^ (1024 : ℤ) < digits * 10 ^ e := by
  have hpower : (2 : ℚ) ^ (if 0 ≤ e then 3 * e else 4 * e) ≤ 10 ^ e := by
    split
    · exact pow_two_le_pow_ten (by omega) (by omega)
    · exact pow_two_le_pow_ten (by omega) (by omega)
  have hlog : (1024 : ℤ) < digits.log2 + (if 0 ≤ e then 3 * e else 4 * e) := by
    split <;> omega
  calc (2 : ℚ) ^ (1024 : ℤ) < 2 ^ ((digits.log2 : ℤ) + if 0 ≤ e then 3 * e else 4 * e) :=
        zpow_lt_zpow_right₀ one_lt_two hlog
    _ = 2 ^ (digits.log2 : ℤ) * 2 ^ (if 0 ≤ e then 3 * e else 4 * e) := zpow_add₀ two_ne_zero _ _
    _ ≤ digits * 10 ^ e := by
        have hle := (log2_bounds hdigits).1
        gcongr

end

/-- **A decimal is read as the number that it rounds to.** -/
theorem ofDecimal_eq_iff (hfinite : x.isFinite = true) (hzero : x.isZero = false)
    (negative : Bool) (digits : ℕ) (e : ℤ) :
    ofDecimal negative digits e = ofMagnitude negative x.magnitude ↔
      RoundsTo ((digits : ℚ) * 10 ^ e) x := by
  have hinfinity : infinityMagnitude < signBit := by decide
  have hmagnitude : x.magnitude ≠ 0 := by simpa [isZero] using hzero
  have hlimit : x.magnitude < infinityMagnitude := of_decide_eq_true hfinite
  unfold ofDecimal
  dsimp only
  split_ifs with hsmall hlarge hsign
  · rw [ofMagnitude_inj (by decide) x.magnitude_lt_signBit]
    refine iff_of_false hmagnitude.symm fun h => ?_
    have hpos := h.pos hzero
    rcases eq_or_ne digits 0 with rfl | hdigits
    · simp at hpos
    · have hlow := (h.bounds hfinite hzero).1
      have hless := decimal_small hdigits (by simpa [hdigits] using hsmall)
      exact absurd (hlow.trans_lt hless) (lt_irrefl _)
  · have hdigits : digits ≠ 0 := by
      rintro rfl
      simp at hsmall
    rw [ofMagnitude_inj hinfinity x.magnitude_lt_signBit]
    refine iff_of_false hlimit.ne' fun h => ?_
    have hhigh := (h.bounds hfinite hzero).2
    exact absurd ((decimal_large hdigits hlarge).trans_le hhigh) (lt_irrefl _)
  · rw [nearest_eq_iff negative _ Nat.one_pos hfinite hzero, Nat.cast_mul, cast_pow_toNat 10 hsign,
      Nat.cast_one, div_one, Nat.cast_ofNat]
  · have hden : 0 < Nat.pow 10 (-e).toNat := Nat.pow_pos (by decide)
    rw [nearest_eq_iff negative digits hden hfinite hzero, cast_pow_toNat_neg 10 hsign,
      div_inv_eq_mul, Nat.cast_ofNat]

end ShaderFront.Binary64
