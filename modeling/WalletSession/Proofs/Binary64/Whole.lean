import WalletSession.Proofs.Binary64.Scaled

/-! Whole numbers. A number of few digits is held as it is, division by an integer is the exact one,
rounded, and the nearest integer to a number is again a number. -/
namespace WalletSession.Binary64

variable {x : Binary64} {negative : Bool} {r : ℚ} {n m d : ℕ}

/-- A whole multiple of a power of two that is no finer than the unit is held as it is. -/
theorem Near.magnitude_eq (near : x.Near r) {e : ℤ} (multiple : r = m * 2 ^ e)
    (fine : x.exponent ≤ e) : x.magnitude = r := by
  obtain ⟨j, rfl⟩ : ∃ j : ℕ, e = x.exponent + j := ⟨(e - x.exponent).toNat, by omega⟩
  have power : (0 : ℚ) < 2 ^ x.exponent := by positivity
  have units : r = (m * 2 ^ j : ℕ) * 2 ^ x.exponent := by
    rw [multiple, zpow_add₀ (by norm_num), zpow_natCast]
    push_cast
    ring
  have high := near.le_magnitude
  have low := near.magnitude_le
  rw [magnitude, units] at high low ⊢
  generalize m * 2 ^ j = k at *
  have few : k < x.significand + 1 := by
    have few : (k : ℚ) < x.significand + 1 := by nlinarith
    exact_mod_cast few
  have many : x.significand < k + 1 := by
    have many : (x.significand : ℚ) < k + 1 := by nlinarith
    exact_mod_cast many
  rw [show x.significand = k by omega]

/-- The unit of a number is small if the number is. -/
theorem Near.exponent_le (near : x.Near r) {e : ℤ} (least : -1074 ≤ e)
    (small : r < (2 ^ 53 - 1) * 2 ^ e) : x.exponent ≤ e := by
  by_contra above
  have normal := x.significand_bounds.2.2 (least.trans_lt (not_le.mp above))
  have low := near.magnitude_le
  have digits : (2 : ℚ) ^ 52 ≤ x.significand := by exact_mod_cast normal.1
  have power : (0 : ℚ) < 2 ^ x.exponent := by positivity
  have twice : (2 : ℚ) ^ e * 2 ≤ 2 ^ x.exponent := by
    rw [← zpow_add_one₀ (by norm_num)]
    exact zpow_le_zpow_right₀ (by norm_num) (not_le.mp above)
  rw [magnitude] at low
  nlinarith

theorem lt_overflow_of_le (few : n ≤ 2 ^ 53) : (n : ℚ) < overflow := by
  have few : (n : ℚ) ≤ 2 ^ (53 : ℤ) := by exact_mod_cast few
  exact few.trans_lt ((zpow_lt_zpow_right₀ (by norm_num) (by norm_num)).trans overflow_bounds.1)

/-- With the unit of the next integers only the first of them is left, and below it the numbers lie
dense. -/
theorem Near.eq_of_last (near : x.Near n) (few : n ≤ 2 ^ 53) (last : x.exponent = 1) :
    x.significand = 2 ^ 52 ∧ n = 2 ^ 53 := by
  have few' : (n : ℚ) ≤ 2 ^ 53 := by exact_mod_cast few
  have digits := (x.significand_bounds.2.2 (by omega)).1
  have power : x.significand = 2 ^ 52 := by
    have low := near.magnitude_le
    rw [magnitude, last, zpow_one] at low
    have high : (x.significand : ℚ) < (2 ^ 52 + 1 : ℕ) := by
      push_cast
      linarith
    have high : x.significand < 2 ^ 52 + 1 := by exact_mod_cast high
    omega
  have field : x.field = 1076 := by
    have unit := last
    unfold exponent at unit
    omega
  have fraction : x.fraction = 0 := by
    have split := power
    rw [significand, if_neg (by omega)] at split
    simpa using split
  have close := (near.scaled (by omega)).2.2.2 fraction (by omega)
  rw [power, last, zpow_one, le_div_iff₀ (by norm_num)] at close
  have least : (2 ^ 53 : ℕ) < (n : ℚ) + 1 := by
    push_cast at close ⊢
    linarith
  have least : 2 ^ 53 < n + 1 := by exact_mod_cast least
  exact ⟨power, by omega⟩

/-- Integers of 53 binary digits are held as they are, and so is the next one. -/
theorem RoundsTo.magnitude_eq (rounds : RoundsTo negative n x) (few : n ≤ 2 ^ 53) :
    x.magnitude = n := by
  have near := rounds.near_of_lt (lt_overflow_of_le few)
  have few' : (n : ℚ) ≤ 2 ^ 53 := by exact_mod_cast few
  have small : x.exponent ≤ 1 := near.exponent_le (by norm_num) (few'.trans_lt (by norm_num))
  rcases lt_or_eq_of_le small with fine | last
  · exact near.magnitude_eq (m := n) (e := 0) (by simp) (by omega)
  · obtain ⟨power, rfl⟩ := near.eq_of_last few last
    rw [magnitude, power, last]
    norm_num

theorem roundsTo_divNat (finite : x.isFinite = true) (some' : 0 < d) :
    RoundsTo x.negative (x.magnitude / d) (x.divNat d) := by
  have den : 0 < d * Nat.pow 2 (-x.exponent).toNat := Nat.mul_pos some' (by simp)
  have rounds := roundsTo_ofRatio x.negative (x.significand * Nat.pow 2 x.exponent.toNat) den
  have ratio := scaled_ratio x.significand d (-x.exponent)
  rw [neg_neg, zpow_neg, div_inv_eq_mul, div_mul_eq_mul_div] at ratio
  rw [divNat, if_pos finite]
  exact ratio ▸ rounds

theorem isFinite_divNat (finite : x.isFinite = true) (large : 2 ≤ d) : (x.divNat d).isFinite = true := by
  have den : (2 : ℚ) ≤ d := by exact_mod_cast large
  exact (roundsTo_divNat finite (by omega)).isFinite_iff.mpr
    ((magnitude_div_lt finite den).trans overflow_bounds.1)

/-- The quotient of doubles, with a half added, is the nearest integer. -/
theorem nearest_bounds (s : ℕ) {u : ℕ} (some : 0 < u) :
    (((2 * s + u) / (2 * u) : ℕ) : ℚ) - 1 / 2 ≤ s / u ∧
      (s / u : ℚ) < ((2 * s + u) / (2 * u) : ℕ) + 1 / 2 := by
  have part := Nat.div_add_mod (2 * s + u) (2 * u)
  have less := Nat.mod_lt (2 * s + u) (show 0 < 2 * u by omega)
  generalize (2 * s + u) / (2 * u) = n at *
  have below : 2 * u * n ≤ 2 * s + u := by omega
  have above : 2 * s + u < 2 * u * n + 2 * u := by omega
  have below : (2 * u * n : ℚ) ≤ 2 * s + u := by exact_mod_cast below
  have above : (2 * s + u : ℚ) < 2 * u * n + 2 * u := by exact_mod_cast above
  have den : (0 : ℚ) < u := by exact_mod_cast some
  constructor
  · rw [le_div_iff₀ den]
    linarith
  · rw [div_lt_iff₀ den]
    linarith

/-- The nearest integer, a half away from zero. -/
structure IsWhole (negative : Bool) (r : ℚ) (n : ℕ) (x : Binary64) : Prop where
  sign : x.negative = negative
  finite : x.isFinite = true
  magnitude : x.magnitude = n
  low : (n : ℚ) - 1 / 2 ≤ r
  high : r < n + 1 / 2

/-- Rounding finds the nearest integer. -/
theorem roundHalfAway_spec (finite : x.isFinite = true) :
    ∃ n, IsWhole x.negative x.magnitude n x.roundHalfAway := by
  unfold roundHalfAway
  simp only [finite, Bool.true_and, decide_eq_true_eq]
  split
  next below =>
    obtain ⟨j, eq⟩ := Int.eq_ofNat_of_zero_le (show 0 ≤ -x.exponent by omega)
    have unit : x.magnitude = x.significand / (2 ^ j : ℕ) := by
      rw [magnitude, show x.exponent = -j by omega, zpow_neg, zpow_natCast]
      push_cast
      rfl
    rw [unit, eq, Int.toNat_natCast, Nat.pow_eq]
    have positive : 0 < 2 ^ j := by positivity
    generalize 2 ^ j = u at *
    have few : (2 * x.significand + u) / (2 * u) ≤ 2 ^ 53 := by
      have most := x.significand_bounds.1
      exact Nat.div_le_of_le_mul (by omega)
    obtain ⟨low, high⟩ := nearest_bounds x.significand positive
    generalize (2 * x.significand + u) / (2 * u) = n at *
    have rounds := roundsTo_nat x.negative n
    have fits := lt_overflow_of_le few
    exact ⟨n, rounds.negative_of_lt fits, rounds.isFinite_iff.mpr fits, rounds.magnitude_eq few, low, high⟩
  next above =>
    obtain ⟨j, eq⟩ := Int.eq_ofNat_of_zero_le (not_lt.mp above)
    have whole : x.magnitude = (x.significand * 2 ^ j : ℕ) := by
      rw [magnitude, eq, zpow_natCast]
      push_cast
      rfl
    exact ⟨_, rfl, finite, whole, by linarith, by linarith⟩

end WalletSession.Binary64
