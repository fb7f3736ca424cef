import ShaderFront.Proofs.Binary64.Rounding

/-!
# Shortest decimals stand for their numbers

The shortest decimal of a number rounds to it. The order of a number in powers of ten is found from
its order in powers of two. On a grid of seventeen digits one of the two points beside the number
rounds to it, since such a grid is finer than the doubles; so the search for a grid ends, with a
point that rounds to the number.
-/

namespace ShaderFront.Binary64

/-! ## The interval of a number -/

/-- A number of quarter units, in the units of the interval. -/
theorem quarters_div (n : ℕ) (e : ℤ) :
    ((n * (if 0 ≤ e - 2 then Nat.pow 2 (e - 2).toNat else 1) : ℕ) : ℚ) /
      ((if 0 ≤ e - 2 then 1 else Nat.pow 2 (2 - e).toNat : ℕ) : ℚ) = n / 4 * 2 ^ e := by
  have hunit := (pow_quotient two_pos (e - 2)).2.2
  rw [neg_sub, Nat.cast_ofNat, zpow_sub₀ two_ne_zero] at hunit
  rw [Nat.cast_mul, mul_div_assoc, hunit]
  norm_num
  ring

variable {x : Binary64}

theorem interval_den_pos (x : Binary64) : 0 < x.interval.den := by
  unfold interval
  dsimp only
  split
  · exact Nat.one_pos
  · exact Nat.pow_pos two_pos

theorem interval_value (x : Binary64) :
    (x.interval.value : ℚ) / x.interval.den = x.absValue := by
  refine (quarters_div (4 * x.significand) x.exponent).trans ?_
  rw [absValue, Nat.cast_mul]
  ring

theorem interval_high (x : Binary64) :
    (x.interval.high : ℚ) / x.interval.den = (x.significand + 1 / 2) * 2 ^ x.exponent := by
  refine (quarters_div (4 * x.significand + 2) x.exponent).trans ?_
  push_cast
  ring

/-- The exponent is the lowest one for the lowest two values of its field. -/
theorem narrow_iff (x : Binary64) :
    (x.significand == leadingBit && decide (1 < x.exponentField)) = true ↔ x.gapHalves := by
  have hfield : 1 < x.exponentField ↔ x.exponent ≠ -1074 := by
    unfold exponent
    split <;> omega
  simp [gapHalves, hfield]

theorem interval_low (hzero : x.isZero = false) : (x.interval.low : ℚ) / x.interval.den =
    (x.significand - if x.gapHalves then 1 / 4 else 1 / 2) * 2 ^ x.exponent := by
  have hpos := significand_pos hzero
  refine (quarters_div _ x.exponent).trans ?_
  by_cases h : x.gapHalves
  · rw [if_pos h, if_pos ((narrow_iff x).2 h), Nat.cast_sub (by omega)]
    push_cast
    ring
  · rw [if_neg h, if_neg (mt (narrow_iff x).1 h), Nat.cast_sub (by omega)]
    push_cast
    ring

/-- **The interval of a number holds what rounds to it.** -/
theorem interval_holds_iff (hzero : x.isZero = false) {n d : ℕ} (hd : 0 < d) :
    x.interval.holds n d = true ↔ RoundsTo ((n : ℚ) / d) x := by
  have hden := x.interval_den_pos
  have hunit : (0 : ℚ) < 2 ^ x.exponent := zpow_pos two_pos _
  have hclosed : x.interval.closed = (x.significand % 2 == 0) := rfl
  by_cases heven : x.significand % 2 = 0
  · simp only [Interval.holds, hclosed, heven, beq_self_eq_true, if_true, Bool.and_eq_true,
      decide_eq_true_eq, cross_le_iff hden hd, cross_le_iff hd hden, interval_low hzero,
      interval_high, ← le_div_iff₀ hunit, ← div_le_iff₀ hunit]
    exact ⟨fun h => ⟨h.1, h.2, fun hodd => absurd heven hodd⟩, fun h => ⟨h.low, h.high⟩⟩
  · simp only [Interval.holds, hclosed, beq_eq_false_iff_ne.2 heven, Bool.false_eq_true, if_false,
      Bool.and_eq_true, decide_eq_true_eq, cross_lt_iff hden hd, cross_lt_iff hd hden,
      interval_low hzero, interval_high, ← lt_div_iff₀ hunit, ← div_lt_iff₀ hunit]
    exact ⟨fun h => ⟨h.1.le, h.2.le, fun _ => h⟩, fun h => h.inside heven⟩

/-! ## The order in powers of ten -/

variable {den : ℕ}

/-- The search ends at the order if that is not below the start and not too far above it. -/
theorem decimalOrderFrom_spec (num : ℕ) (hden : 0 < den) {fuel : ℕ} {e : ℤ}
    (hlow : (10 : ℚ) ^ e ≤ (num : ℚ) / den) (hhigh : (num : ℚ) / den < 10 ^ (e + fuel + 1)) :
    (10 : ℚ) ^ decimalOrderFrom num den fuel e ≤ (num : ℚ) / den ∧
      (num : ℚ) / den < 10 ^ (decimalOrderFrom num den fuel e + 1) ∧
      e ≤ decimalOrderFrom num den fuel e ∧ decimalOrderFrom num den fuel e ≤ e + fuel := by
  induction fuel generalizing e with
  | zero =>
    rw [Nat.cast_zero, add_zero] at hhigh
    exact ⟨hlow, hhigh, le_refl e, by simp [decimalOrderFrom]⟩
  | succ fuel ih =>
    have habove := pow_le_quotient_iff num (by decide : 0 < 10) hden (e + 1)
    push_cast at habove
    simp only [decimalOrderFrom, habove]
    split
    · rename_i h
      rw [Nat.cast_succ, ← add_assoc, add_right_comm e] at hhigh
      obtain ⟨hlow', hhigh', hle, hge⟩ := ih h hhigh
      exact ⟨hlow', hhigh', by omega, by push_cast; omega⟩
    · rename_i h
      exact ⟨hlow, not_le.1 h, le_refl e, by omega⟩

/-- Powers are compared by their exponents, given a comparison of fixed powers. -/
theorem zpow_le_zpow_of_pow {c d : ℚ} (hc : 1 ≤ c) (hd : 0 < d) {p q : ℕ} (hq : q ≠ 0)
    (h : c ^ p ≤ d ^ q) {a b : ℤ} (hb : 0 ≤ b) (hab : q * a ≤ p * b) : c ^ a ≤ d ^ b := by
  have hc' : 0 < c := one_pos.trans_le hc
  obtain ⟨k, rfl⟩ := Int.eq_ofNat_of_zero_le hb
  refine (pow_le_pow_iff_left₀ (zpow_pos hc' a).le (zpow_pos hd _).le hq).1 ?_
  calc (c ^ a) ^ q = c ^ (q * a) := by rw [mul_comm, zpow_mul, zpow_natCast]
    _ ≤ c ^ (p * (k : ℤ)) := zpow_le_zpow_right₀ hc hab
    _ = (c ^ p) ^ k := by rw [zpow_mul, zpow_natCast, zpow_natCast]
    _ ≤ (d ^ q) ^ k := by gcongr
    _ = (d ^ (k : ℤ)) ^ q := by rw [zpow_natCast, ← pow_mul, ← pow_mul, mul_comm]

/-- A power of ten below a power of two. -/
theorem pow_ten_le_pow_two {a b : ℤ} (hpos : 0 ≤ b → 196 * a ≤ 59 * b)
    (hneg : b ≤ 0 → 93 * a ≤ 28 * b) : (10 : ℚ) ^ a ≤ 2 ^ b := by
  rcases le_total 0 b with hb | hb
  · exact zpow_le_zpow_of_pow (by norm_num) two_pos (by decide)
      (by norm_num : (10 : ℚ) ^ 59 ≤ 2 ^ 196) hb (hpos hb)
  · have ha : 93 * a ≤ 28 * b := hneg hb
    have h : (2 : ℚ) ^ (-b) ≤ 10 ^ (-a) :=
      zpow_le_zpow_of_pow (by norm_num) (by norm_num) (by decide)
        (by norm_num : (2 : ℚ) ^ 93 ≤ 10 ^ 28) (by omega) (by push_cast; omega)
    rw [zpow_neg, zpow_neg] at h
    exact (inv_le_inv₀ (by positivity) (by positivity)).1 h

/-- A power of two below a power of ten. -/
theorem pow_two_le_pow_ten {a b : ℤ} (hpos : 0 ≤ a → 28 * b ≤ 93 * a)
    (hneg : a ≤ 0 → 59 * b ≤ 196 * a) : (2 : ℚ) ^ b ≤ 10 ^ a := by
  have h := pow_ten_le_pow_two (a := -a) (b := -b) (by omega) (by omega)
  rw [zpow_neg, zpow_neg] at h
  exact (inv_le_inv₀ (by positivity) (by positivity)).1 h

theorem absValue_bounds (hfinite : x.isFinite = true) (hzero : x.isZero = false) :
    (2 : ℚ) ^ (-1074 : ℤ) ≤ x.absValue ∧ x.absValue < 2 ^ (1024 : ℤ) := by
  have hone : (1 : ℚ) ≤ x.significand := by exact_mod_cast significand_pos hzero
  have hlt : (x.significand : ℚ) < 2 * leadingBit := by exact_mod_cast x.significand_lt
  have hexp := exponent_le hfinite
  constructor
  · calc (2 : ℚ) ^ (-1074 : ℤ) ≤ 2 ^ x.exponent := zpow_le_zpow_right₀ one_le_two x.le_exponent
      _ = 1 * 2 ^ x.exponent := (one_mul _).symm
      _ ≤ x.significand * 2 ^ x.exponent := by gcongr
  · calc (x.significand : ℚ) * 2 ^ x.exponent < 2 ^ (53 : ℤ) * 2 ^ x.exponent := by
          rw [← two_leadingBit]
          gcongr
      _ = 2 ^ (53 + x.exponent) := (zpow_add₀ two_ne_zero _ _).symm
      _ ≤ 2 ^ (1024 : ℤ) := zpow_le_zpow_right₀ one_le_two (by omega)

/-- **The order of a number in powers of ten.** -/
theorem decimalOrder_spec (hfinite : x.isFinite = true) (hzero : x.isZero = false) {k : ℤ}
    (hk : decimalOrder x.interval.value x.interval.den = k) :
    (10 : ℚ) ^ k ≤ x.absValue ∧ x.absValue < 10 ^ (k + 1) ∧ -330 ≤ k ∧ k ≤ 330 := by
  have hden := x.interval_den_pos
  have hvalue := x.interval_value
  obtain ⟨hlow, hhigh⟩ := absValue_bounds hfinite hzero
  have hnum : 0 < x.interval.value := by
    have hpos := absValue_pos hzero
    rw [← hvalue] at hpos
    exact Nat.cast_pos.1 ((div_pos_iff_of_pos_right (Nat.cast_pos.2 hden)).1 hpos)
  obtain ⟨hbelow, habove⟩ := binaryOrder_spec hnum hden
  obtain ⟨b, hb⟩ : ∃ b, binaryOrder x.interval.value x.interval.den = b := ⟨_, rfl⟩
  rw [hb, hvalue] at hbelow habove
  have hbLow := (zpow_lt_zpow_iff_right₀ (one_lt_two (α := ℚ))).1 (hlow.trans_lt habove)
  have hbHigh := (zpow_lt_zpow_iff_right₀ (one_lt_two (α := ℚ))).1 (hbelow.trans_lt hhigh)
  -- The estimate is one too low at most, and the search makes up for that.
  obtain ⟨s, hs⟩ : ∃ s, b * 30103 / 100000 - 1 = s := ⟨_, rfl⟩
  have hstart : (10 : ℚ) ^ s ≤ x.absValue :=
    (pow_ten_le_pow_two (by omega) (by omega)).trans hbelow
  have hend : x.absValue < 10 ^ (s + (3 : ℕ) + 1) :=
    habove.trans_le (pow_two_le_pow_ten (by push_cast; omega) (by push_cast; omega))
  have hsearch := decimalOrderFrom_spec x.interval.value hden (hvalue.symm ▸ hstart)
    (hvalue.symm ▸ hend)
  rw [decimalOrder, hb, hs] at hk
  rw [hk, hvalue] at hsearch
  exact ⟨hsearch.1, hsearch.2.1, by omega, by omega⟩

/-! ## Grids -/

theorem roundsTo_of_lt {q : ℚ}
    (hlow : (x.significand : ℚ) - (if x.gapHalves then 1 / 4 else 1 / 2) < q / 2 ^ x.exponent)
    (hhigh : q / 2 ^ x.exponent < x.significand + 1 / 2) : RoundsTo q x :=
  ⟨hlow.le, hhigh.le, fun _ => ⟨hlow, hhigh⟩⟩

/-- Of the two points of a grid beside a number, one that rounds to it is taken, if there is one. -/
theorem gridPoint_spec (hzero : x.isZero = false) (tie : Tie) (e : ℤ) :
    ∃ below : ℕ, (below : ℚ) * 10 ^ e ≤ x.absValue ∧ x.absValue < (below + 1 : ℕ) * 10 ^ e ∧
      ((∃ d, gridPoint tie x.interval e = some d ∧ (d = below ∨ d = below + 1) ∧
        RoundsTo (d * 10 ^ e) x) ∨
      gridPoint tie x.interval e = none ∧ ¬RoundsTo (below * 10 ^ e) x ∧
        ¬RoundsTo ((below + 1 : ℕ) * 10 ^ e) x) := by
  obtain ⟨up, hup⟩ : ∃ up, (if 0 ≤ e then Nat.pow 10 e.toNat else 1) = up := ⟨_, rfl⟩
  obtain ⟨down, hdown⟩ : ∃ down, (if 0 ≤ e then 1 else Nat.pow 10 (-e).toNat) = down := ⟨_, rfl⟩
  obtain ⟨hup', hdown', hstep⟩ := pow_quotient (by decide : 0 < 10) e
  rw [hup] at hup' hstep
  rw [hdown] at hdown' hstep
  rw [Nat.cast_ofNat] at hstep
  have hden := x.interval_den_pos
  have hholds (n : ℕ) : x.interval.holds (n * up) down = true ↔ RoundsTo (n * 10 ^ e) x := by
    rw [interval_holds_iff hzero hdown', Nat.cast_mul, mul_div_assoc, hstep]
  obtain ⟨below, hbelow⟩ :
    ∃ below, x.interval.value * down / (x.interval.den * up) = below := ⟨_, rfl⟩
  have hgrid := Nat.mul_pos x.interval_den_pos hup'
  refine ⟨below, ?_, ?_, ?_⟩
  · rw [← hstep, ← mul_div_assoc, ← interval_value, ← Nat.cast_mul, ← cross_le_iff hdown' hden]
    calc below * up * x.interval.den = below * (x.interval.den * up) := by ring
      _ ≤ x.interval.value * down := hbelow ▸ Nat.div_mul_le_self _ _
  · rw [← hstep, ← mul_div_assoc, ← interval_value, ← Nat.cast_mul, ← cross_lt_iff hden hdown']
    calc x.interval.value * down < x.interval.den * up * (below + 1) :=
          hbelow ▸ Nat.lt_mul_div_succ _ hgrid
      _ = (below + 1) * up * x.interval.den := by ring
  · simp only [gridPoint, hup, hdown, hbelow]
    cases hlow : x.interval.holds (below * up) down <;>
      cases hhigh : x.interval.holds ((below + 1) * up) down
    · refine .inr ⟨rfl, ?_, ?_⟩
      · rw [← hholds, hlow]
        exact Bool.false_ne_true
      · rw [← hholds, hhigh]
        exact Bool.false_ne_true
    · exact .inl ⟨_, rfl, .inr rfl, (hholds _).1 hhigh⟩
    · exact .inl ⟨_, rfl, .inl rfl, (hholds _).1 hlow⟩
    · have htaken (d : ℕ) (hd : d = below ∨ d = below + 1) : ∃ d', some d = some d' ∧
          (d' = below ∨ d' = below + 1) ∧ RoundsTo (d' * 10 ^ e) x := by
        refine ⟨d, rfl, hd, ?_⟩
        rcases hd with rfl | rfl
        · exact (hholds _).1 hlow
        · exact (hholds _).1 hhigh
      refine .inl ?_
      cases tie <;> simp only [Bool.and_self, if_true] <;> split_ifs
      · exact htaken _ (.inl rfl)
      · exact htaken _ (.inr rfl)
      · exact htaken _ (.inr rfl)
      · exact htaken _ (.inl rfl)
      · exact htaken _ (.inr rfl)
      · exact htaken _ (.inl rfl)
      · exact htaken _ (.inr rfl)

/-- **A grid with seventeen digits has a point that rounds to the number.** -/
theorem roundsTo_seventeen {e : ℤ} {below : ℕ}
    (hgrid : (10 : ℚ) ^ 16 * 10 ^ e ≤ x.absValue) (hbelow : (below : ℚ) * 10 ^ e ≤ x.absValue)
    (habove : x.absValue < (below + 1 : ℕ) * 10 ^ e) :
    RoundsTo (below * 10 ^ e) x ∨ RoundsTo ((below + 1 : ℕ) * 10 ^ e) x := by
  have hunit : (0 : ℚ) < 2 ^ x.exponent := zpow_pos two_pos _
  -- Everything is measured in units of the last place.
  obtain ⟨g, hg⟩ : ∃ g : ℚ, (10 : ℚ) ^ e / 2 ^ x.exponent = g := ⟨_, rfl⟩
  have hpoint (n : ℕ) : (n : ℚ) * 10 ^ e / 2 ^ x.exponent = n * g := by rw [mul_div_assoc, hg]
  have hstep : (10 : ℚ) ^ e = g * 2 ^ x.exponent := (div_eq_iff hunit.ne').1 hg
  rw [absValue, hstep, ← mul_assoc] at hgrid hbelow habove
  replace hgrid := le_of_mul_le_mul_right hgrid hunit
  replace hbelow := le_of_mul_le_mul_right hbelow hunit
  replace habove := lt_of_mul_lt_mul_right habove hunit.le
  push_cast at habove
  have hsmall : (x.significand : ℚ) < 9007199254740992 :=
    (Nat.cast_lt.2 x.significand_lt).trans_eq (by norm_num [leadingBit])
  by_cases hgap : x.gapHalves
  · refine .inr (roundsTo_of_lt ?_ ?_)
    · rw [if_pos hgap, hpoint]
      push_cast
      linarith
    · rw [hpoint]
      have hpower : (x.significand : ℚ) = 4503599627370496 := by
        rw [hgap.1]
        norm_num [leadingBit]
      push_cast
      linarith
  · by_cases hnear : (x.significand : ℚ) - 1 / 2 < below * g
    · refine .inl (roundsTo_of_lt ?_ ?_)
      · rwa [if_neg hgap, hpoint]
      · rw [hpoint]
        linarith
    · refine .inr (roundsTo_of_lt ?_ ?_)
      · rw [if_neg hgap, hpoint]
        push_cast
        linarith
      · rw [hpoint]
        push_cast
        linarith

/-! ## The search for a grid -/

/-- The number that a decimal stands for. -/
def Decimal.value (d : Decimal) : ℚ := d.digits * 10 ^ d.exponent

/-- A decimal of few digits rounds to a number, and its exponent is not far from zero. -/
structure Decimal.Stands (limit : ℤ) (d : Decimal) (x : Binary64) : Prop where
  rounds : RoundsTo d.value x
  short : d.digits ≤ 10 ^ 17
  low : -350 ≤ d.exponent
  high : d.exponent ≤ limit

section

variable (hzero : x.isZero = false) (tie : Tie) {order : ℤ}
  (hlow : (10 : ℚ) ^ order ≤ x.absValue) (hhigh : x.absValue < 10 ^ (order + 1))
  (horder : -330 ≤ order ∧ order ≤ 330)

include hzero hlow hhigh horder

/-- A grid of seventeen digits at most has a point that stands for the number, or has fewer. -/
theorem gridPoint_stands {k : ℕ} (hk : 1 ≤ k) (hk' : k ≤ 17) :
    (∃ d, gridPoint tie x.interval (order + 1 - k) = some d ∧
      Decimal.Stands 330 ⟨d, order + 1 - k⟩ x) ∨
    gridPoint tie x.interval (order + 1 - k) = none ∧ k ≠ 17 := by
  obtain ⟨below, hbelow, habove, ⟨d, hd, hbeside, hrounds⟩ | ⟨hnone, hno, hno'⟩⟩ :=
    gridPoint_spec hzero tie (order + 1 - k)
  · have hlt : (below : ℚ) < (10 ^ k : ℕ) := by
      refine lt_of_mul_lt_mul_right (hbelow.trans_lt (hhigh.trans_eq ?_))
        (zpow_pos (by norm_num) (order + 1 - k)).le
      rw [Nat.cast_pow, Nat.cast_ofNat, ← zpow_natCast, ← zpow_add₀ (by norm_num)]
      congr 1
      ring
    have hle : below + 1 ≤ 10 ^ 17 :=
      (Nat.succ_le_iff.2 (Nat.cast_lt.1 hlt)).trans (Nat.pow_le_pow_right (by decide) hk')
    exact .inl ⟨d, hd, hrounds, by dsimp only; omega, by dsimp only; omega, by dsimp only; omega⟩
  · refine .inr ⟨hnone, ?_⟩
    rintro rfl
    have hfine : (10 : ℚ) ^ 16 * 10 ^ (order + 1 - (17 : ℕ)) ≤ x.absValue := by
      rw [← zpow_natCast, ← zpow_add₀ (by norm_num)]
      convert hlow using 2
      push_cast
      ring
    rcases roundsTo_seventeen hfine hbelow habove with h | h
    · exact hno h
    · exact hno' h

/-- **The search finds a decimal that stands for the number.** -/
theorem shortestFrom_stands {fuel k : ℕ} (hfuel : fuel + k = 17) (hk : 1 ≤ k) :
    (shortestFrom tie x.interval order (fuel + 1) k).Stands 330 x := by
  induction fuel generalizing k with
  | zero =>
    rw [shortestFrom]
    rcases gridPoint_stands hzero tie hlow hhigh horder hk (by omega) with
      ⟨d, hd, hstands⟩ | ⟨-, hk'⟩
    · rwa [hd]
    · omega
  | succ fuel ih =>
    rw [shortestFrom]
    rcases gridPoint_stands hzero tie hlow hhigh horder hk (by omega) with
      ⟨d, hd, hstands⟩ | ⟨hnone, -⟩
    · rwa [hd]
    · rw [hnone]
      exact ih (by omega) (by omega)

end

theorem Decimal.Stands.normalize {limit : ℤ} {d : Decimal} (h : d.Stands limit x) (fuel : ℕ) :
    (d.normalize fuel).Stands (limit + fuel) x := by
  induction fuel generalizing limit d with
  | zero => simpa [Decimal.normalize] using h
  | succ fuel ih =>
    rw [Decimal.normalize]
    split
    · rename_i hten
      have hdigits : d.digits = d.digits / 10 * 10 := by omega
      have hvalue : Decimal.value ⟨d.digits / 10, d.exponent + 1⟩ = d.value := by
        rw [Decimal.value, Decimal.value, zpow_add_one₀ (by norm_num)]
        conv_rhs => rw [hdigits]
        push_cast
        ring
      have hshort := h.short
      have hlow := h.low
      have hhigh := h.high
      have hnext : Decimal.Stands (limit + 1) ⟨d.digits / 10, d.exponent + 1⟩ x :=
        ⟨hvalue ▸ h.rounds, by dsimp only; omega, by dsimp only; omega, by dsimp only; omega⟩
      have hlimit : limit + 1 + fuel = limit + (fuel + 1 : ℕ) := by
        push_cast
        ring
      exact hlimit ▸ ih hnext
    · exact ⟨h.rounds, h.short, h.low, by have := h.high; omega⟩

/-- **The shortest decimal of a number rounds to it**, whichever way ties go. -/
theorem shortest_stands (hfinite : x.isFinite = true) (hzero : x.isZero = false) (tie : Tie) :
    (shortest tie x).Stands 350 x := by
  obtain ⟨hlow, hhigh, horder⟩ := decimalOrder_spec hfinite hzero rfl
  exact (shortestFrom_stands hzero tie hlow hhigh horder (show 16 + 1 = 17 from rfl)
    le_rfl).normalize 20

end ShaderFront.Binary64
