import WalletSession.Binary64.Scaled
import WalletSession.Proofs.Binary64.Rounded

/-! Reading by way of the table of powers. Each product and each quotient is the exact one, rounded.
What is read may lie beside the number nearest to the exact value, but it is finite wherever that value
stays a few units of the last place below the greatest number. -/
namespace WalletSession.Binary64

variable {x y : Binary64} {negative : Bool} {r : ℚ} {k : ℕ}

/-- The value of a finite number without its sign. -/
def magnitude (x : Binary64) : ℚ := x.significand * 2 ^ x.exponent

theorem magnitude_nonneg (x : Binary64) : 0 ≤ x.magnitude := by
  unfold magnitude
  positivity

theorem roundsTo_mul (x y : Binary64) :
    RoundsTo (x.negative != y.negative) (x.magnitude * y.magnitude) (x.mul y) := by
  have rounds := roundsTo_ofRatio (x.negative != y.negative)
    (x.significand * y.significand * Nat.pow 2 (x.exponent + y.exponent).toNat)
    (show 0 < Nat.pow 2 (-(x.exponent + y.exponent)).toNat by simp)
  rw [ratio_eq, Nat.cast_ofNat, zpow_add₀ (by norm_num), Nat.cast_mul, mul_mul_mul_comm] at rounds
  exact rounds

theorem roundsTo_div (x : Binary64) (some : 0 < y.significand) :
    RoundsTo (x.negative != y.negative) (x.magnitude / y.magnitude) (x.div y) := by
  have den : 0 < y.significand * Nat.pow 2 (-(x.exponent - y.exponent)).toNat :=
    Nat.mul_pos some (by simp)
  have rounds := roundsTo_ofRatio (x.negative != y.negative)
    (x.significand * Nat.pow 2 (x.exponent - y.exponent).toNat) den
  have ratio := scaled_ratio x.significand y.significand (-(x.exponent - y.exponent))
  rw [neg_neg] at ratio
  rw [ratio, zpow_neg, div_inv_eq_mul, zpow_sub₀ (by norm_num), div_mul_div_comm] at rounds
  exact rounds

section Near

/-- What rounds to a number is at most half a unit of its last place away. -/
theorem Near.le_magnitude (near : x.Near r) : r ≤ x.magnitude + 2 ^ x.exponent / 2 := by
  refine near.2.1.trans_eq ?_
  rw [x.high_eq, magnitude]
  ring

theorem Near.magnitude_le (near : x.Near r) : x.magnitude ≤ r + 2 ^ x.exponent / 2 := by
  rcases Nat.eq_zero_or_pos x.significand with none | some
  · have nonneg : 0 ≤ r := le_trans (by positivity) near.1
    rw [magnitude, none, Nat.cast_zero, zero_mul]
    positivity
  · have power : (0 : ℚ) < 2 ^ x.exponent := by positivity
    have low := (near.scaled some).1
    rw [le_div_iff₀ power] at low
    rw [magnitude]
    linarith

/-- From one on all numbers have a full significand. -/
theorem Near.significand_ge (near : x.Near r) (large : 1 ≤ r) : 2 ^ 52 ≤ x.significand := by
  obtain ⟨small, least, normal⟩ := x.significand_bounds
  rcases least.lt_or_eq with above | bottom
  · exact (normal above).1
  · have high := large.trans near.le_magnitude
    have most : (x.significand : ℚ) + 1 ≤ 2 ^ (53 : ℤ) := by exact_mod_cast small
    have unit : (0 : ℚ) < 2 ^ (-1074 : ℤ) := by positivity
    have tiny : (2 : ℚ) ^ (53 : ℤ) * 2 ^ (-1074 : ℤ) ≤ 1 := by
      rw [← zpow_add₀ (by norm_num)]
      exact zpow_le_one_of_nonpos₀ (by norm_num) (by norm_num)
    rw [magnitude, ← bottom] at high
    nlinarith

/-- Rounding to a number of 53 binary digits makes little larger. -/
theorem Near.magnitude_mul_le (near : x.Near r) (full : 2 ^ 52 ≤ x.significand) :
    x.magnitude * (2 ^ 53 - 1) ≤ r * 2 ^ 53 := by
  have power : (0 : ℚ) < 2 ^ x.exponent := by positivity
  have digits : (2 : ℚ) ^ 52 ≤ x.significand := by exact_mod_cast full
  have unit := mul_le_mul_of_nonneg_right digits power.le
  have close := near.magnitude_le
  rw [magnitude] at close ⊢
  linarith

end Near

theorem RoundsTo.near_of_lt (rounds : RoundsTo negative r x) (fits : r < overflow) : x.Near r := by
  cases rounds with
  | near _ _ near => exact near
  | tooLarge large => exact absurd large fits.not_ge

theorem RoundsTo.negative_of_lt (rounds : RoundsTo negative r x) (fits : r < overflow) :
    x.negative = negative := by
  cases rounds with
  | near sign => exact sign
  | tooLarge large => exact absurd large fits.not_ge

section Powers

/-- An entry of the table is what its power rounds to. -/
theorem roundsTo_powerOfTen (k : ℕ) : RoundsTo false (10 ^ k) (powerOfTen k) := by
  have rounds := roundsTo_ofDecimal false 1 k
  rwa [Nat.cast_one, one_mul, zpow_natCast] at rounds

/-- The table ends with the greatest power of ten below the greatest number. -/
theorem greatestPower_bounds : (10 : ℚ) ^ greatestPower ≤ (2 ^ 53 - 1) * 2 ^ (971 : ℤ) ∧
    (2 ^ 53 * 2 ^ (971 : ℤ) : ℚ) < 10 ^ (greatestPower + 1) := by
  -- the exponents are variables here, so that no power of rationals is computed
  have low (i j : ℕ) (low : 10 ^ i + 2 ^ j ≤ 2 ^ 53 * 2 ^ j) :
      (10 : ℚ) ^ i ≤ (2 ^ 53 - 1) * 2 ^ (j : ℤ) := by
    have low : (10 ^ i + 2 ^ j : ℚ) ≤ 2 ^ 53 * 2 ^ j := by exact_mod_cast low
    rw [zpow_natCast]
    linarith
  have high (i j : ℕ) (high : 2 ^ 53 * 2 ^ j < 10 ^ i) : (2 ^ 53 * 2 ^ (j : ℤ) : ℚ) < 10 ^ i := by
    exact_mod_cast high
  exact ⟨low 308 971 (by decide +kernel), high 309 971 (by decide +kernel)⟩

theorem pow_lt_overflow (small : k ≤ greatestPower) : (10 : ℚ) ^ k < overflow := by
  have unit : (0 : ℚ) < 2 ^ (971 : ℤ) := by positivity
  calc (10 : ℚ) ^ k ≤ 10 ^ greatestPower := pow_le_pow_right₀ (by norm_num) small
    _ ≤ (2 ^ 53 - 1) * 2 ^ (971 : ℤ) := greatestPower_bounds.1
    _ < overflow := mul_lt_mul_of_pos_right (by norm_num) unit

theorem near_powerOfTen (small : k ≤ greatestPower) : (powerOfTen k).Near (10 ^ k) :=
  (roundsTo_powerOfTen k).near_of_lt (pow_lt_overflow small)

theorem two_le_powerOfTen (some : 0 < k) (small : k ≤ greatestPower) :
    2 ≤ (powerOfTen k).magnitude := by
  have near := near_powerOfTen small
  have ten : (10 : ℚ) ≤ 10 ^ k := le_self_pow₀ (by norm_num) some.ne'
  have full := near.significand_ge (by linarith)
  have high := near.le_magnitude
  have digits : (2 : ℚ) ^ 52 ≤ (powerOfTen k).significand := by exact_mod_cast full
  have power : (0 : ℚ) < 2 ^ (powerOfTen k).exponent := by positivity
  have unit := mul_le_mul_of_nonneg_right digits power.le
  rw [magnitude] at high ⊢
  linarith

end Powers

theorem significand_pos_of_magnitude (large : 0 < x.magnitude) : 0 < x.significand := by
  rw [Nat.pos_iff_ne_zero]
  intro none
  rw [magnitude, none, Nat.cast_zero, zero_mul] at large
  exact large.false

theorem magnitude_div_lt {d : ℚ} (finite : x.isFinite = true) (large : 2 ≤ d) :
    x.magnitude / d < 2 ^ (1023 : ℤ) := by
  have power : (0 : ℚ) < 2 ^ x.exponent := by positivity
  have twice : (2 : ℚ) ^ (1024 : ℤ) = 2 ^ (1023 : ℤ) * 2 := zpow_add_one₀ (by norm_num) 1023
  rw [magnitude, div_lt_iff₀ (by linarith)]
  calc (x.significand : ℚ) * 2 ^ x.exponent < (x.significand + 1) * 2 ^ x.exponent := by linarith
    _ ≤ 2 ^ (1023 : ℤ) * 2 := twice ▸ Binary64.magnitude_le finite
    _ ≤ 2 ^ (1023 : ℤ) * d := by gcongr

theorem isFinite_div (finite : x.isFinite = true) (large : 2 ≤ y.magnitude) :
    (x.div y).isFinite = true := by
  have some := significand_pos_of_magnitude (show 0 < y.magnitude by linarith)
  exact (roundsTo_div x some).isFinite_iff.mpr
    ((magnitude_div_lt finite large).trans overflow_bounds.1)

/-- Division by powers of ten does not lead out of the finite numbers. -/
theorem isFinite_divPowers (finite : x.isFinite = true) (times : ℕ) {last : ℕ} (some : 0 < last)
    (small : last ≤ greatestPower) : (x.divPowers times last).isFinite = true := by
  induction times generalizing x with
  | zero => exact isFinite_div finite (two_le_powerOfTen some small)
  | succ times ih =>
    rw [divPowers]
    split
    · exact finite
    · exact ih (isFinite_div finite (two_le_powerOfTen (by decide) le_rfl))

variable {significand : UInt64} {e : ℤ}

theorem significand_lt_overflow (significand : UInt64) : (significand.toNat : ℚ) < overflow := by
  have bound : (significand.toNat : ℚ) < 2 ^ (64 : ℤ) := by exact_mod_cast significand.toNat_lt
  have powers : (2 : ℚ) ^ (64 : ℤ) ≤ 2 ^ (1023 : ℤ) := zpow_le_zpow_right₀ (by norm_num) (by norm_num)
  exact bound.trans_le (powers.trans overflow_bounds.1.le)

/-- Only finite numbers are read. -/
theorem isFinite_of_ofParts? (read : ofParts? negative significand e = some x) :
    x.isFinite = true := by
  have finite := (roundsTo_nat negative significand.toNat).isFinite_iff.mpr
    (significand_lt_overflow significand)
  unfold ofParts? at read
  simp only at read
  split at read
  next down =>
    cases read
    have some : 0 < e.natAbs := by omega
    refine isFinite_divPowers finite _ ?_ ?_ <;> unfold greatestPower <;> omega
  next =>
  split at read
  · obtain ⟨finite, ⟨⟩⟩ := Option.ite_none_right_eq_some.mp read
    exact finite
  · obtain ⟨-, ⟨⟩⟩ := Option.ite_none_right_eq_some.mp read
    exact finite

/-- The rounding of the digits and of the power adds less than two units to a value, and the rounding
of the product less than one half. -/
theorem product_lt_overflow (negative : Bool) (small : k ≤ greatestPower)
    (low : (significand.toNat * 10 ^ k : ℚ) ≤ (2 ^ 53 - 7 / 2) * 2 ^ (971 : ℤ)) :
    (ofRatio negative significand.toNat 1).magnitude * (powerOfTen k).magnitude < overflow := by
  have digits := (roundsTo_nat negative significand.toNat).near_of_lt
    (significand_lt_overflow significand)
  have power := near_powerOfTen small
  generalize ofRatio negative significand.toNat 1 = x at *
  generalize powerOfTen k = p at *
  have ten : (1 : ℚ) ≤ 10 ^ k := one_le_pow₀ (by norm_num)
  rw [overflow]
  have unit : (0 : ℚ) < 2 ^ (971 : ℤ) := by positivity
  generalize (2 : ℚ) ^ (971 : ℤ) = u at *
  rcases Nat.eq_zero_or_pos significand.toNat with none | some
  · have nothing : x.significand = 0 := by
      by_contra positive
      have pos := digits.pos (Nat.pos_of_ne_zero positive)
      rw [none, Nat.cast_zero] at pos
      exact pos.false
    rw [magnitude, nothing, Nat.cast_zero, zero_mul, zero_mul]
    exact mul_pos (by norm_num) unit
  · have one : (1 : ℚ) ≤ significand.toNat := by exact_mod_cast some
    have wide := digits.magnitude_mul_le (digits.significand_ge one)
    have wide' := power.magnitude_mul_le (power.significand_ge ten)
    have both : x.magnitude * p.magnitude * (2 ^ 53 - 1) ^ 2 ≤ (2 ^ 53 - 7 / 2) * u * (2 ^ 53) ^ 2 := by
      calc x.magnitude * p.magnitude * (2 ^ 53 - 1) ^ 2 =
          x.magnitude * (2 ^ 53 - 1) * (p.magnitude * (2 ^ 53 - 1)) := by ring
        _ ≤ (significand.toNat : ℚ) * 2 ^ 53 * (10 ^ k * 2 ^ 53) :=
          mul_le_mul wide wide' (mul_nonneg p.magnitude_nonneg (by norm_num)) (by positivity)
        _ = (significand.toNat : ℚ) * 10 ^ k * (2 ^ 53) ^ 2 := by ring
        _ ≤ (2 ^ 53 - 7 / 2) * u * (2 ^ 53) ^ 2 := by gcongr
    nlinarith

/-- A value that stays three and a half units below the next power of two is read. -/
theorem isSome_ofParts? (negative : Bool)
    (low : (significand.toNat * 10 ^ e : ℚ) ≤ (2 ^ 53 - 7 / 2) * 2 ^ (971 : ℤ)) :
    (ofParts? negative significand e).isSome = true := by
  unfold ofParts?
  simp only
  split
  next => rfl
  next up =>
  obtain ⟨k, rfl⟩ := Int.eq_ofNat_of_zero_le (not_lt.mp up)
  rw [zpow_natCast] at low
  rw [Int.natAbs_natCast]
  split
  next small =>
    have finite := (roundsTo_mul _ _).isFinite_iff.mpr (product_lt_overflow negative small low)
    rw [if_pos finite]
    rfl
  next large =>
    have none : significand = 0 := by
      by_contra some
      have one : (1 : ℚ) ≤ significand.toNat := by
        exact_mod_cast Nat.pos_of_ne_zero fun none => some (UInt64.toNat_inj.mp none)
      have power : (10 : ℚ) ^ (greatestPower + 1) ≤ 10 ^ k :=
        pow_le_pow_right₀ (by norm_num) (not_le.mp large)
      have high := greatestPower_bounds.2
      have unit : (0 : ℚ) < 2 ^ (971 : ℤ) := by positivity
      have whole := mul_le_mul one power (by positivity) (by positivity)
      generalize (2 : ℚ) ^ (971 : ℤ) = u at *
      generalize (10 : ℚ) ^ (greatestPower + 1) = t at *
      linarith
    rw [if_pos none]
    rfl

/-- Only the three greatest numbers come closer to the next power of two. -/
theorem magnitude_le_or_greatest (finite : x.isFinite = true) :
    x.magnitude + 2 ^ x.exponent / 2 ≤ (2 ^ 53 - 7 / 2) * 2 ^ (971 : ℤ) ∨
      ∃ k < 3, x = signed x.negative (2047 * Nat.pow 2 52 - 1 - k) := by
  obtain ⟨small, -, -⟩ := x.significand_bounds
  have most : (x.significand : ℚ) + 1 ≤ 2 ^ 53 := by exact_mod_cast small
  have unit : (0 : ℚ) < 2 ^ (971 : ℤ) := by positivity
  rcases (exponent_le finite).lt_or_eq with below | last
  · left
    have power : (0 : ℚ) < 2 ^ x.exponent := by positivity
    have half : (2 : ℚ) ^ x.exponent * 2 ≤ 2 ^ (971 : ℤ) := by
      rw [← zpow_add_one₀ (by norm_num)]
      exact zpow_le_zpow_right₀ (by norm_num) below
    have whole := mul_le_mul_of_nonneg_right most power.le
    rw [magnitude]
    generalize (2 : ℚ) ^ (971 : ℤ) = u at *
    linarith
  · rcases le_or_gt x.significand (2 ^ 53 - 4) with low | high
    · left
      have low : (x.significand : ℚ) + 4 ≤ 2 ^ 53 := by
        have low : x.significand + 4 ≤ 2 ^ 53 := by omega
        exact_mod_cast low
      have whole := mul_le_mul_of_nonneg_right low unit.le
      rw [magnitude, last]
      generalize (2 : ℚ) ^ (971 : ℤ) = u at *
      linarith
    · right
      have rank : x.field * Nat.pow 2 52 + x.fraction =
          2047 * Nat.pow 2 52 - 1 - (2 ^ 53 - 1 - x.significand) := by
        rw [x.rank_eq, last]
        simp only [Nat.pow_eq]
        omega
      exact ⟨_, by omega, rank ▸ x.signed_bits.symm⟩

end WalletSession.Binary64
