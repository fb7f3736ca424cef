import Mathlib.Algebra.Order.Field.Power
import Mathlib.Data.Rat.Cast.Order
import Mathlib.Tactic.FieldSimp
import Mathlib.Tactic.Linarith
import Mathlib.Tactic.NormNum
import Mathlib.Tactic.Positivity
import Mathlib.Tactic.Ring
import ShaderFront.Binary64.Shortest

/-!
# Which numbers round to a double

Absolute values of finite doubles are rational numbers. A rational rounds to a double if it lies
within half the gap to the next double above and half the gap to the next one below; the ends of
this interval belong to it if the significand is even (`RoundsTo`). The double nearest to a quotient
is the one that it rounds to.
-/

namespace ShaderFront.Binary64

/-! ## Powers and quotients -/

/-- A power with an exponent that is not negative, as a natural number. -/
theorem cast_pow_toNat (b : ℕ) {e : ℤ} (h : 0 ≤ e) :
    ((Nat.pow b e.toNat : ℕ) : ℚ) = (b : ℚ) ^ e := by
  rw [Nat.pow_eq, Nat.cast_pow, ← zpow_natCast, Int.toNat_of_nonneg h]

theorem cast_pow_toNat_neg (b : ℕ) {e : ℤ} (h : ¬0 ≤ e) :
    ((Nat.pow b (-e).toNat : ℕ) : ℚ) = ((b : ℚ) ^ e)⁻¹ := by
  rw [cast_pow_toNat b (by omega), zpow_neg]

variable {num den : ℕ}

/-- A quotient is compared with a power in whole numbers. -/
theorem pow_le_quotient_iff (num : ℕ) {b : ℕ} (hb : 0 < b) (hden : 0 < den) (e : ℤ) :
    (if 0 ≤ e then den * Nat.pow b e.toNat ≤ num else den ≤ num * Nat.pow b (-e).toNat) ↔
      (b : ℚ) ^ e ≤ (num : ℚ) / den := by
  have hpow : (0 : ℚ) < (b : ℚ) ^ e := zpow_pos (Nat.cast_pos.2 hb) e
  rw [le_div_iff₀ (Nat.cast_pos.2 hden)]
  split
  · rename_i he
    rw [← cast_pow_toNat b he, ← Nat.cast_mul, Nat.cast_le, Nat.mul_comm]
  · rename_i he
    rw [← Nat.cast_le (α := ℚ), Nat.cast_mul, cast_pow_toNat_neg b he, ← div_eq_mul_inv,
      le_div_iff₀ hpow, mul_comm]

/-- A quotient is divided by a power in whole numbers. -/
theorem quotient_div_pow (num den b : ℕ) (e : ℤ) :
    (if 0 ≤ e then (num : ℚ) / (den * Nat.pow b e.toNat : ℕ)
      else (num * Nat.pow b (-e).toNat : ℕ) / (den : ℚ)) = (num : ℚ) / den / (b : ℚ) ^ e := by
  split
  · rename_i he
    rw [Nat.cast_mul, cast_pow_toNat b he, div_div]
  · rename_i he
    rw [Nat.cast_mul, cast_pow_toNat_neg b he]
    ring

/-- Quotients are compared crosswise. -/
theorem cross_le_iff {a b c d : ℕ} (hb : 0 < b) (hd : 0 < d) :
    a * d ≤ c * b ↔ (a : ℚ) / b ≤ (c : ℚ) / d := by
  rw [div_le_div_iff₀ (Nat.cast_pos.2 hb) (Nat.cast_pos.2 hd)]
  exact_mod_cast Iff.rfl

theorem cross_lt_iff {a b c d : ℕ} (hb : 0 < b) (hd : 0 < d) :
    a * d < c * b ↔ (a : ℚ) / b < (c : ℚ) / d := by
  rw [div_lt_div_iff₀ (Nat.cast_pos.2 hb) (Nat.cast_pos.2 hd)]
  exact_mod_cast Iff.rfl

/-- A power as a quotient of whole numbers. -/
theorem pow_quotient {b : ℕ} (hb : 0 < b) (e : ℤ) :
    0 < (if 0 ≤ e then Nat.pow b e.toNat else 1) ∧
      0 < (if 0 ≤ e then 1 else Nat.pow b (-e).toNat) ∧
      ((if 0 ≤ e then Nat.pow b e.toNat else 1 : ℕ) : ℚ) /
        (if 0 ≤ e then 1 else Nat.pow b (-e).toNat : ℕ) = (b : ℚ) ^ e := by
  by_cases he : 0 ≤ e
  · simp only [if_pos he]
    refine ⟨Nat.pow_pos hb, Nat.one_pos, ?_⟩
    rw [cast_pow_toNat b he, Nat.cast_one, div_one]
  · simp only [if_neg he]
    refine ⟨Nat.one_pos, Nat.pow_pos hb, ?_⟩
    rw [cast_pow_toNat_neg b he, Nat.cast_one, one_div, inv_inv]

theorem cast_leadingBit : (leadingBit : ℚ) = 2 ^ (52 : ℤ) := by norm_num [leadingBit]

theorem two_leadingBit : (2 * leadingBit : ℚ) = 2 ^ (53 : ℤ) := by norm_num [leadingBit]

/-! ## Whole numbers -/

/-- The whole number next to a rational, or the even one of two. -/
structure NearestWhole (q : ℚ) (m : ℕ) : Prop where
  low : (m : ℚ) - 1 / 2 ≤ q
  high : q ≤ m + 1 / 2
  ties : q = m - 1 / 2 ∨ q = m + 1 / 2 → m % 2 = 0

/-- Only one whole number is nearest. -/
theorem NearestWhole.unique {q : ℚ} {m m' : ℕ} (h : NearestWhole q m) (h' : NearestWhole q m') :
    m = m' := by
  have hle {k k' : ℕ} (h : NearestWhole q k) (h' : NearestWhole q k') : k ≤ k' := by
    by_contra hlt
    -- The two lie on either side of a half, and both are even.
    have hnext : (k' : ℚ) + 1 ≤ k := by exact_mod_cast Nat.succ_le_iff.2 (not_le.1 hlt)
    have hlow := h.low
    have hhigh := h'.high
    have hsucc : k = k' + 1 := by
      have hclose : (k : ℚ) ≤ (k' + 1 : ℕ) := by
        push_cast
        linarith
      exact le_antisymm (Nat.cast_le.1 hclose) (Nat.succ_le_iff.2 (not_le.1 hlt))
    have heven := h.ties (.inl (by linarith))
    have heven' := h'.ties (.inr (by linarith))
    omega
  exact le_antisymm (hle h h') (hle h' h)

/-- Rounding half to even yields the nearest whole number, and the even one of two. -/
theorem nearestWhole_roundHalfEven (hden : 0 < den) :
    NearestWhole ((num : ℚ) / den) (roundHalfEven num den) := by
  have hden' : (0 : ℚ) < den := Nat.cast_pos.2 hden
  have hmod := Nat.mod_lt num hden
  -- The quotient is the whole part `w` and a rest below one.
  obtain ⟨w, r, hw, hr⟩ : ∃ w r, num / den = w ∧ num % den = r := ⟨_, _, rfl, rfl⟩
  have hnum : num = den * w + r := by rw [← hw, ← hr, Nat.div_add_mod]
  obtain ⟨rest, hrest⟩ : ∃ rest : ℚ, (r : ℚ) / den = rest := ⟨_, rfl⟩
  have hquotient : (num : ℚ) / den = w + rest := by
    rw [hnum, ← hrest, Nat.cast_add, Nat.cast_mul]
    field_simp
  have hone : rest < 1 := by
    rw [← hrest, div_lt_one hden', Nat.cast_lt, ← hr]
    exact hmod
  have hpos : 0 ≤ rest := by
    rw [← hrest]
    positivity
  have hless : 2 * r < den ↔ rest < 1 / 2 := by
    rw [← hrest, div_lt_div_iff₀ hden' two_pos, one_mul, mul_comm (r : ℚ)]
    exact_mod_cast Iff.rfl
  have hmore : den < 2 * r ↔ 1 / 2 < rest := by
    rw [← hrest, div_lt_div_iff₀ two_pos hden', one_mul, mul_comm (r : ℚ)]
    exact_mod_cast Iff.rfl
  rw [hquotient]
  simp only [roundHalfEven, hw, hr, hless, hmore]
  split_ifs with hbelow habove heven
  · refine ⟨by linarith, by linarith, ?_⟩
    rintro (htie | htie) <;> linarith
  · refine ⟨by push_cast; linarith, by push_cast; linarith, ?_⟩
    rintro (htie | htie) <;> push_cast at htie <;> linarith
  · exact ⟨by linarith, by linarith, fun _ => heven⟩
  · exact ⟨by push_cast; linarith, by push_cast; linarith, fun _ => by omega⟩

/-! ## Orders -/

/-- The order of a quotient is the power of two below it. -/
theorem binaryOrder_spec (hnum : 0 < num) (hden : 0 < den) :
    (2 : ℚ) ^ binaryOrder num den ≤ (num : ℚ) / den ∧
      (num : ℚ) / den < 2 ^ (binaryOrder num den + 1) := by
  have hden' : (0 : ℚ) < den := Nat.cast_pos.2 hden
  have hnumLow : (2 : ℚ) ^ (num.log2 : ℤ) ≤ num := by
    rw [zpow_natCast]
    exact_mod_cast Nat.log2_self_le hnum.ne'
  have hnumHigh : (num : ℚ) < 2 ^ ((num.log2 : ℤ) + 1) := by
    exact_mod_cast Nat.lt_log2_self (n := num)
  have hdenLow : (2 : ℚ) ^ (den.log2 : ℤ) ≤ den := by
    rw [zpow_natCast]
    exact_mod_cast Nat.log2_self_le hden.ne'
  have hdenHigh : (den : ℚ) < 2 ^ ((den.log2 : ℤ) + 1) := by
    exact_mod_cast Nat.lt_log2_self (n := den)
  obtain ⟨e, he⟩ : ∃ e : ℤ, (num.log2 : ℤ) - den.log2 = e := ⟨_, rfl⟩
  have hhigh : (num : ℚ) / den < 2 ^ (e + 1) := by
    rw [div_lt_iff₀ hden']
    calc (num : ℚ) < 2 ^ ((num.log2 : ℤ) + 1) := hnumHigh
      _ = 2 ^ (e + 1) * 2 ^ (den.log2 : ℤ) := by
        rw [← zpow_add₀ two_ne_zero]
        congr 1
        omega
      _ ≤ 2 ^ (e + 1) * den := by gcongr
  have hlow : (2 : ℚ) ^ (e - 1) ≤ num / den := by
    rw [le_div_iff₀ hden']
    calc (2 : ℚ) ^ (e - 1) * den ≤ 2 ^ (e - 1) * 2 ^ ((den.log2 : ℤ) + 1) := by gcongr
      _ = 2 ^ (num.log2 : ℤ) := by
        rw [← zpow_add₀ two_ne_zero]
        congr 1
        omega
      _ ≤ num := hnumLow
  have hreached := pow_le_quotient_iff num two_pos hden e
  push_cast at hreached
  simp only [binaryOrder, he, hreached]
  by_cases h : (2 : ℚ) ^ e ≤ num / den
  · rw [if_pos h]
    exact ⟨h, hhigh⟩
  · rw [if_neg h, sub_add_cancel]
    exact ⟨hlow, not_le.1 h⟩

/-- The order of a quotient is known by a power on either side. -/
theorem binaryOrder_eq (hnum : 0 < num) (hden : 0 < den) {e : ℤ}
    (hlow : (2 : ℚ) ^ e ≤ (num : ℚ) / den) (hhigh : (num : ℚ) / den < 2 ^ (e + 1)) :
    binaryOrder num den = e := by
  obtain ⟨hlow', hhigh'⟩ := binaryOrder_spec hnum hden
  have h := (zpow_lt_zpow_iff_right₀ (one_lt_two (α := ℚ))).1 (hlow.trans_lt hhigh')
  have h' := (zpow_lt_zpow_iff_right₀ (one_lt_two (α := ℚ))).1 (hlow'.trans_lt hhigh)
  omega

/-! ## Finite doubles -/

/-- The absolute value of a finite number. -/
def absValue (x : Binary64) : ℚ := x.significand * 2 ^ x.exponent

/-- A significand has at most 53 bits. -/
theorem significand_lt (x : Binary64) : x.significand < 2 * leadingBit := by
  have h : x.fraction < leadingBit := Nat.mod_lt _ (by decide)
  unfold significand
  split <;> omega

/-- A significand has all its places, unless the exponent is the lowest. -/
theorem significand_full (x : Binary64) : leadingBit ≤ x.significand ∨ x.exponent = -1074 := by
  unfold significand exponent
  split
  · exact .inr rfl
  · exact .inl (Nat.le_add_left _ _)

theorem le_exponent (x : Binary64) : -1074 ≤ x.exponent := by
  unfold exponent
  split <;> omega

theorem exponent_le {x : Binary64} (h : x.isFinite = true) : x.exponent ≤ 971 := by
  have hfield : x.exponentField < 2047 := Nat.div_lt_of_lt_mul
    (Nat.mul_comm _ _ ▸ of_decide_eq_true h)
  unfold exponent
  split <;> omega

/-- The magnitude counts the doubles below. -/
theorem magnitude_eq (x : Binary64) :
    x.magnitude = (x.exponent + 1074).toNat * leadingBit + x.significand := by
  have h : x.magnitude = leadingBit * x.exponentField + x.fraction :=
    (Nat.div_add_mod x.magnitude leadingBit).symm
  unfold significand exponent
  split
  · rename_i hzero
    rw [h, hzero]
    rfl
  · have hpos : (((x.exponentField : ℤ) - 1075 + 1074).toNat) = x.exponentField - 1 := by omega
    rw [h, hpos, Nat.mul_comm]
    obtain ⟨e, he⟩ := Nat.exists_eq_succ_of_ne_zero ‹x.exponentField ≠ 0›
    rw [he, Nat.succ_sub_one, Nat.succ_mul]
    omega

theorem significand_pos {x : Binary64} (h : x.isZero = false) : 0 < x.significand := by
  have hmag : x.magnitude ≠ 0 := by simpa [isZero] using h
  rw [magnitude_eq] at hmag
  rcases x.significand_full with hfull | hlow
  · exact Nat.lt_of_lt_of_le (by decide) hfull
  · rw [hlow] at hmag
    simpa [Nat.pos_iff_ne_zero] using hmag

theorem absValue_pos {x : Binary64} (h : x.isZero = false) : 0 < x.absValue :=
  mul_pos (Nat.cast_pos.2 (significand_pos h)) (zpow_pos two_pos _)

/-- The gap below a power of two is half the one above it. -/
def gapHalves (x : Binary64) : Prop := x.significand = leadingBit ∧ x.exponent ≠ -1074

instance (x : Binary64) : Decidable x.gapHalves := inferInstanceAs (Decidable (_ ∧ _))

/-- The rationals that round to a finite positive number, in units of its last place. -/
structure RoundsTo (q : ℚ) (x : Binary64) : Prop where
  low : (x.significand : ℚ) - (if x.gapHalves then 1 / 4 else 1 / 2) ≤ q / 2 ^ x.exponent
  high : q / 2 ^ x.exponent ≤ x.significand + 1 / 2
  inside : x.significand % 2 ≠ 0 →
    (x.significand : ℚ) - (if x.gapHalves then 1 / 4 else 1 / 2) < q / 2 ^ x.exponent ∧
      q / 2 ^ x.exponent < x.significand + 1 / 2

/-- A double is what its own value rounds to. -/
theorem roundsTo_absValue (x : Binary64) : RoundsTo x.absValue x := by
  have h : x.absValue / 2 ^ x.exponent = x.significand := by
    rw [absValue, mul_div_assoc, div_self (by positivity), mul_one]
  refine ⟨?_, ?_, fun _ => ⟨?_, ?_⟩⟩ <;> rw [h] <;> (try split_ifs) <;> linarith

theorem RoundsTo.pos {q : ℚ} {x : Binary64} (h : RoundsTo q x) (hzero : x.isZero = false) :
    0 < q := by
  have hm : (1 : ℚ) ≤ x.significand := by exact_mod_cast significand_pos hzero
  have hlow := h.low
  have hunits : 0 < q / 2 ^ x.exponent := by
    split_ifs at hlow <;> linarith
  exact (div_pos_iff_of_pos_right (zpow_pos two_pos _)).1 hunits

/-- A magnitude is that of the whole number of units nearest to the quotient. -/
theorem nearestMagnitude_spec (hnum : 0 < num) (hden : 0 < den) {e : ℤ}
    (horder : max (binaryOrder num den - 52) (-1074) = e) :
    ∃ m, NearestWhole ((num : ℚ) / den / 2 ^ e) m ∧ nearestMagnitude num den =
      min ((e + 1074).toNat * leadingBit + m) infinityMagnitude := by
  have hwhole := quotient_div_pow num den 2 e
  rw [Nat.cast_ofNat] at hwhole
  have hne : (num = 0 || den = 0) = false := by simp [hnum.ne', hden.ne']
  simp only [nearestMagnitude, hne, horder]
  rw [if_neg Bool.false_ne_true]
  refine ⟨_, ?_, rfl⟩
  rw [← hwhole]
  split
  · exact nearestWhole_roundHalfEven (Nat.mul_pos hden (Nat.pow_pos two_pos))
  · exact nearestWhole_roundHalfEven hden

theorem nearestMagnitude_eq (hnum : 0 < num) (hden : 0 < den) {e : ℤ} {m : ℕ}
    (horder : max (binaryOrder num den - 52) (-1074) = e)
    (hround : NearestWhole ((num : ℚ) / den / 2 ^ e) m) :
    nearestMagnitude num den = min ((e + 1074).toNat * leadingBit + m) infinityMagnitude := by
  obtain ⟨m', hround', heq⟩ := nearestMagnitude_spec hnum hden horder
  rw [heq, hround'.unique hround]

/-- In units of the last place a quotient has at most 53 bits before the point, and not fewer
unless the units are the smallest ones. -/
theorem unit_spec (hnum : 0 < num) (hden : 0 < den) {e : ℤ}
    (horder : max (binaryOrder num den - 52) (-1074) = e) {u : ℚ}
    (hu : (num : ℚ) / den = u * 2 ^ e) :
    -1074 ≤ e ∧ u < 2 * leadingBit ∧ (leadingBit ≤ u ∨ e = -1074) := by
  have hunit : (0 : ℚ) < 2 ^ e := by positivity
  obtain ⟨hlow, hhigh⟩ := binaryOrder_spec hnum hden
  rw [hu] at hlow hhigh
  refine ⟨by omega, ?_, ?_⟩
  · rw [two_leadingBit]
    refine lt_of_mul_lt_mul_right (hhigh.trans_le ?_) hunit.le
    rw [← zpow_add₀ two_ne_zero]
    exact zpow_le_zpow_right₀ one_le_two (by omega)
  · refine or_iff_not_imp_right.2 fun he => ?_
    refine le_of_mul_le_mul_right (le_trans (le_of_eq ?_) hlow) hunit
    rw [cast_leadingBit, ← zpow_add₀ two_ne_zero]
    congr 1
    omega

/-- A quotient at least `2 ^ 52` units large, or one of the smallest units, has its last place at
the unit. -/
theorem unit_eq (hnum : 0 < num) (hden : 0 < den) {e : ℤ} (he : -1074 ≤ e) {u : ℚ}
    (hu : (num : ℚ) / den = u * 2 ^ e) (hhigh : u < 2 * leadingBit)
    (hfull : leadingBit ≤ u ∨ e = -1074) : max (binaryOrder num den - 52) (-1074) = e := by
  have hunit : (0 : ℚ) < 2 ^ e := by positivity
  by_cases hu' : leadingBit ≤ u
  · have horder : binaryOrder num den = e + 52 := by
      refine binaryOrder_eq hnum hden ?_ ?_
      · rw [hu, add_comm, zpow_add₀ two_ne_zero, ← cast_leadingBit]
        gcongr
      · rw [hu, add_right_comm, add_comm (e + 1), zpow_add₀ two_ne_zero, ← cast_leadingBit,
          zpow_add_one₀ two_ne_zero]
        nlinarith
    omega
  · obtain rfl := hfull.resolve_left hu'
    have hlow := (binaryOrder_spec hnum hden).1.trans_lt
      (hu.trans_lt (mul_lt_mul_of_pos_right (not_le.1 hu') hunit))
    rw [cast_leadingBit, ← zpow_add₀ two_ne_zero] at hlow
    have := (zpow_lt_zpow_iff_right₀ (one_lt_two (α := ℚ))).1 hlow
    omega

/-- **A quotient that rounds to a number has that number nearest to it.** -/
theorem nearestMagnitude_of_roundsTo (hden : 0 < den) {x : Binary64} (hfinite : x.isFinite = true)
    (hzero : x.isZero = false) (h : RoundsTo ((num : ℚ) / den) x) :
    nearestMagnitude num den = x.magnitude := by
  have hden' : (0 : ℚ) < den := Nat.cast_pos.2 hden
  have hnum : 0 < num := Nat.cast_pos.1 ((div_pos_iff_of_pos_right hden').1 (h.pos hzero))
  have hmagnitude : x.magnitude < infinityMagnitude := of_decide_eq_true hfinite
  have hm : (x.significand : ℚ) + 1 ≤ 2 * leadingBit := by exact_mod_cast x.significand_lt
  have he := x.le_exponent
  obtain ⟨hlow, hhigh, hinside⟩ := h
  obtain ⟨u, hu⟩ : ∃ u, (num : ℚ) / den / 2 ^ x.exponent = u := ⟨_, rfl⟩
  rw [hu] at hlow hhigh hinside
  have hvalue : (num : ℚ) / den = u * 2 ^ x.exponent := (div_eq_iff (by positivity)).1 hu
  by_cases hfull : leadingBit ≤ u ∨ x.exponent = -1074
  · have hround : NearestWhole u x.significand := by
      refine ⟨?_, hhigh, fun htie => ?_⟩
      · split_ifs at hlow <;> linarith
      · by_contra hodd
        have hinside := hinside hodd
        split_ifs at hinside <;> rcases htie with htie | htie <;> linarith
    rw [nearestMagnitude_eq hnum hden (unit_eq hnum hden he hvalue (by linarith) hfull)
      (hu.symm ▸ hround), ← magnitude_eq, Nat.min_eq_left hmagnitude.le]
  · -- Only a power of two has such a quotient, which is below it and so has smaller units.
    obtain ⟨hbelow, hunit⟩ := not_or.1 hfull
    have hleading := x.significand_full.resolve_right hunit
    have hpower : x.significand = leadingBit := by
      have : (x.significand : ℚ) < (leadingBit + 1 : ℕ) := by
        push_cast
        split_ifs at hlow <;> linarith
      exact le_antisymm (Nat.lt_succ_iff.1 (Nat.cast_lt.1 this)) hleading
    rw [if_pos ⟨hpower, hunit⟩, hpower] at hlow
    have hvalue' : (num : ℚ) / den = 2 * u * 2 ^ (x.exponent - 1) := by
      rw [hvalue, zpow_sub_one₀ two_ne_zero]
      ring
    have hround : NearestWhole (2 * u) (2 * leadingBit) := by
      refine ⟨?_, ?_, fun _ => rfl⟩ <;> push_cast <;> linarith
    have horder := unit_eq hnum hden (by omega) hvalue' (by linarith)
      (.inl (by norm_num [leadingBit] at hlow ⊢; linarith))
    rw [nearestMagnitude_eq hnum hden horder ((div_eq_iff (by positivity)).2 hvalue' ▸ hround)]
    have hsame : (x.exponent - 1 + 1074).toNat * leadingBit + 2 * leadingBit = x.magnitude := by
      rw [magnitude_eq, hpower, show (x.exponent + 1074).toNat =
        (x.exponent - 1 + 1074).toNat + 1 by omega]
      ring
    rw [hsame, Nat.min_eq_left hmagnitude.le]

/-- What a magnitude counts is known from it, but for a power of two, which is twice the units of
the numbers below it. -/
theorem units_eq {x : Binary64} {e : ℤ} {m : ℕ} (he : -1074 ≤ e) (hm : m ≤ 2 * leadingBit)
    (hfull : leadingBit ≤ m ∨ e = -1074)
    (h : (e + 1074).toNat * leadingBit + m = x.magnitude) :
    e = x.exponent ∧ m = x.significand ∨
      m = 2 * leadingBit ∧ x.significand = leadingBit ∧ x.exponent = e + 1 := by
  have hbit : leadingBit = 4503599627370496 := rfl
  have hlt := x.significand_lt
  have hfull' := x.significand_full
  have hexp := x.le_exponent
  rw [magnitude_eq] at h
  simp only [hbit] at *
  omega

/-- **And a number is nearest to no quotients but those that round to it.** -/
theorem roundsTo_of_nearestMagnitude (hnum : 0 < num) (hden : 0 < den) {x : Binary64}
    (hfinite : x.isFinite = true) (h : nearestMagnitude num den = x.magnitude) :
    RoundsTo ((num : ℚ) / den) x := by
  obtain ⟨e, horder⟩ : ∃ e, max (binaryOrder num den - 52) (-1074) = e := ⟨_, rfl⟩
  obtain ⟨m, hround, hnearest⟩ := nearestMagnitude_spec hnum hden horder
  obtain ⟨u, hu⟩ : ∃ u, (num : ℚ) / den / 2 ^ e = u := ⟨_, rfl⟩
  have hvalue : (num : ℚ) / den = u * 2 ^ e := (div_eq_iff (by positivity)).1 hu
  obtain ⟨he, hlt, hfull⟩ := unit_spec hnum hden horder hvalue
  rw [hu] at hround
  obtain ⟨hlow, hhigh, hties⟩ := hround
  have hmagnitude : (e + 1074).toNat * leadingBit + m = x.magnitude := by
    have hfinite : x.magnitude < infinityMagnitude := of_decide_eq_true hfinite
    omega
  have hm : m ≤ 2 * leadingBit := by
    have hlt' : (m : ℚ) < (2 * leadingBit + 1 : ℕ) := by
      push_cast
      linarith
    exact Nat.lt_succ_iff.1 (Nat.cast_lt.1 hlt')
  have hfull' : leadingBit ≤ m ∨ e = -1074 := by
    refine hfull.imp_left fun hle => ?_
    have hle' : (leadingBit : ℚ) < (m + 1 : ℕ) := by
      push_cast
      linarith
    exact Nat.lt_succ_iff.1 (Nat.cast_lt.1 hle')
  rcases units_eq he hm hfull' hmagnitude with ⟨rfl, rfl⟩ | ⟨rfl, hpower, hexp⟩
  · have hgap : x.gapHalves → (x.significand : ℚ) ≤ u := by
      rintro ⟨hpower, hunit⟩
      rw [hpower]
      exact hfull.resolve_right hunit
    refine ⟨?_, hu ▸ hhigh, fun hodd => ?_⟩
    · rw [hu]
      split_ifs with hgap'
      · linarith [hgap hgap']
      · exact hlow
    · have hne : ¬x.gapHalves := fun hgap' => hodd (by rw [hgap'.1]; rfl)
      have hties := not_or.1 (mt hties hodd)
      rw [hu, if_neg hne]
      exact ⟨lt_of_le_of_ne hlow (Ne.symm hties.1), lt_of_le_of_ne hhigh hties.2⟩
  · -- The quotient is less than a quarter unit below a power of two.
    have hgap : x.gapHalves := ⟨hpower, by omega⟩
    have hunits : (num : ℚ) / den / 2 ^ x.exponent = u / 2 := by
      rw [hexp, zpow_add_one₀ two_ne_zero, ← hu]
      ring
    refine ⟨?_, ?_, fun hodd => absurd (by rw [hpower]; rfl) hodd⟩
    · rw [hunits, if_pos hgap, hpower]
      push_cast at hlow
      linarith
    · rw [hunits, hpower]
      linarith

/-- **Rounding is right**: a quotient is taken for the finite double that it rounds to, and for no
other one. -/
theorem nearestMagnitude_eq_iff (hden : 0 < den) {x : Binary64} (hfinite : x.isFinite = true)
    (hzero : x.isZero = false) :
    nearestMagnitude num den = x.magnitude ↔ RoundsTo ((num : ℚ) / den) x := by
  refine ⟨fun h => ?_, nearestMagnitude_of_roundsTo hden hfinite hzero⟩
  rcases Nat.eq_zero_or_pos num with rfl | hnum
  · have hmagnitude : x.magnitude ≠ 0 := by simpa [isZero] using hzero
    exact absurd h.symm hmagnitude
  · exact roundsTo_of_nearestMagnitude hnum hden hfinite h

/-! ## Signs -/

theorem bits_ofMagnitude {m : ℕ} (h : m < signBit) (negative : Bool) :
    (ofMagnitude negative m).bits.toNat = if negative then m + signBit else m := by
  refine UInt64.toNat_ofNat_of_lt' ?_
  have hsize : UInt64.size = 2 * signBit := rfl
  split <;> omega

theorem magnitude_ofMagnitude {m : ℕ} (h : m < signBit) (negative : Bool) :
    (ofMagnitude negative m).magnitude = m := by
  rw [magnitude, bits_ofMagnitude h]
  split
  · rw [Nat.add_mod_right, Nat.mod_eq_of_lt h]
  · exact Nat.mod_eq_of_lt h

theorem magnitude_lt_signBit (x : Binary64) : x.magnitude < signBit :=
  Nat.mod_lt _ (by decide)

/-- A double consists of its sign and its magnitude. -/
theorem ofMagnitude_magnitude (x : Binary64) : ofMagnitude x.negative x.magnitude = x := by
  have hsplit : x.bits.toNat = signBit * (x.bits.toNat / signBit) + x.magnitude :=
    (Nat.div_add_mod _ _).symm
  have hsign : x.bits.toNat / signBit < 2 := Nat.div_lt_of_lt_mul x.bits.toNat_lt
  have hbits : (ofMagnitude x.negative x.magnitude).bits.toNat = x.bits.toNat := by
    rw [bits_ofMagnitude x.magnitude_lt_signBit, negative]
    generalize x.bits.toNat / signBit = sign at hsplit hsign
    obtain rfl | rfl : sign = 0 ∨ sign = 1 := by omega
    · simp [hsplit]
    · simp [hsplit, Nat.add_comm]
  exact congrArg Binary64.mk (UInt64.toNat_inj.1 hbits)

theorem ofMagnitude_inj {m m' : ℕ} (h : m < signBit) (h' : m' < signBit) {negative : Bool} :
    ofMagnitude negative m = ofMagnitude negative m' ↔ m = m' := by
  refine ⟨fun heq => ?_, congrArg _⟩
  rw [← magnitude_ofMagnitude h negative, heq, magnitude_ofMagnitude h' negative]

theorem nearestMagnitude_lt (num den : ℕ) : nearestMagnitude num den < signBit := by
  have hinfinity : infinityMagnitude < signBit := by decide
  unfold nearestMagnitude
  split
  · decide
  · exact (Nat.min_le_right _ _).trans_lt hinfinity

/-- **The number nearest to a quotient** is the one that the quotient rounds to, with any sign. -/
theorem nearest_eq_iff (negative : Bool) (num : ℕ) (hden : 0 < den) {x : Binary64}
    (hfinite : x.isFinite = true) (hzero : x.isZero = false) :
    nearest negative num den = ofMagnitude negative x.magnitude ↔
      RoundsTo ((num : ℚ) / den) x := by
  rw [nearest, ofMagnitude_inj (nearestMagnitude_lt num den) x.magnitude_lt_signBit]
  exact nearestMagnitude_eq_iff hden hfinite hzero

end ShaderFront.Binary64
