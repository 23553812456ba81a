import WalletSession.Binary64.Decimal
import WalletSession.Proofs.Binary64.Rounded

/-! The shortest decimal of a number lies in the number's neighbourhood, and so it is read as the
number. -/
namespace WalletSession.Binary64

/-- What a decimal stands for. -/
def Decimal.value (d : Decimal) : ℚ := d.digits * 10 ^ d.exponent

variable {x : Binary64} {n d : ℕ} {step : ℤ}

theorem pow_toNat {b : ℕ} (positive : 0 < b) (e : ℤ) :
    (b : ℚ) ^ e.toNat = b ^ e * b ^ (-e).toNat := by
  have power : (0 : ℚ) < b ^ (-e).toNat := by positivity
  rw [zpow_eq_div]
  push_cast
  field_simp

/-- A count of binary units is compared with a point of a decimal grid over their common
denominator. -/
theorem grid_compare (a k : ℕ) (unit step : ℤ) :
    let up := Nat.pow 2 unit.toNat * Nat.pow 10 (-step).toNat
    let down := Nat.pow 2 (-unit).toNat * Nat.pow 10 step.toNat
    (a * up ≤ k * down ↔ (a : ℚ) * 2 ^ unit ≤ k * 10 ^ step) ∧
      (k * down ≤ a * up ↔ (k : ℚ) * 10 ^ step ≤ a * 2 ^ unit) := by
  intro up down
  have common : (0 : ℚ) < 2 ^ (-unit).toNat * 10 ^ (-step).toNat := by positivity
  have two := pow_toNat (b := 2) (by norm_num) unit
  have ten := pow_toNat (b := 10) (by norm_num) step
  push_cast at two ten
  have left : ((a * up : ℕ) : ℚ) = a * 2 ^ unit * (2 ^ (-unit).toNat * 10 ^ (-step).toNat) := by
    simp only [up, Nat.pow_eq]
    push_cast
    rw [two]
    ring
  have right : ((k * down : ℕ) : ℚ) = k * 10 ^ step * (2 ^ (-unit).toNat * 10 ^ (-step).toNat) := by
    simp only [down, Nat.pow_eq]
    push_cast
    rw [ten]
    ring
  rw [← Nat.cast_le (α := ℚ), ← Nat.cast_le (α := ℚ), left, right,
    mul_le_mul_iff_left₀ common, mul_le_mul_iff_left₀ common]
  exact ⟨Iff.rfl, Iff.rfl⟩

instance (x : Binary64) (r : ℚ) : Decidable (x.Near r) := inferInstanceAs (Decidable (_ ∧ _ ∧ _))

/-- A grid looks for one of its points in the neighbourhood: the one nearest to the middle, or one
of the two around it. -/
theorem onGrid?_eq (x : Binary64) (step : ℤ) :
    let b := x.neighbourhood
    let up := Nat.pow 2 b.unit.toNat * Nat.pow 10 (-step).toNat
    let down := Nat.pow 2 (-b.unit).toNat * Nat.pow 10 step.toNat
    let below := b.middle * up / down
    b.onGrid? step = ([divNearest (b.middle * up) down, below, below + 1].find? fun (k : ℕ) =>
      decide (x.Near (Decimal.mk k step).value)).map (⟨·, step⟩) := by
  intro b up down below
  simp only [Neighbourhood.onGrid?]
  congr 2
  funext k
  obtain ⟨low, low'⟩ := grid_compare b.low k b.unit step
  obtain ⟨high', high⟩ := grid_compare b.high k b.unit step
  rw [Bool.eq_iff_iff, decide_eq_true_iff]
  cases closed : x.neighbourhood.closed with
  | true =>
    simp only [if_true, Bool.and_eq_true, decide_eq_true_eq]
    rw [low, high]
    simp [Near, Decimal.value, closed, b]
  | false =>
    simp only [Bool.false_eq_true, if_false, Bool.and_eq_true, decide_eq_true_eq, ← not_le]
    rw [low', high']
    simp only [Near, b, Decimal.value, closed, true_imp_iff, not_le]
    constructor
    · rintro ⟨more, less⟩
      exact ⟨more.le, less.le, more.ne', less.ne⟩
    · rintro ⟨more, less, other, other'⟩
      exact ⟨more.lt_of_ne' other, less.lt_of_ne other'⟩

/-- What a grid gives lies in the neighbourhood. -/
theorem near_of_onGrid? {found : Decimal} (given : x.neighbourhood.onGrid? step = some found) :
    x.Near found.value := by
  rw [onGrid?_eq] at given
  obtain ⟨k, member, rfl⟩ := Option.map_eq_some_iff.mp given
  have inside := List.find?_some (p := fun k => decide (x.Near (Decimal.mk k step).value)) member
  exact of_decide_eq_true inside

/-- The number itself, as it stands in its neighbourhood. -/
theorem middle_mul (x : Binary64) :
    (x.neighbourhood.middle : ℚ) * 2 ^ x.neighbourhood.unit = x.significand * 2 ^ x.exponent := by
  simp only [neighbourhood, Nat.cast_mul]
  rw [zpow_sub₀ (by norm_num)]
  norm_num
  ring

theorem near_of_between {r : ℚ}
    (low : (x.neighbourhood.low : ℚ) * 2 ^ x.neighbourhood.unit < r)
    (high : r < x.neighbourhood.high * 2 ^ x.neighbourhood.unit) : x.Near r :=
  ⟨low.le, high.le, fun _ => ⟨low.ne', high.ne⟩⟩

/-- A grid that is finer than the neighbourhood has a point in it: one of the two around the
number. -/
theorem isSome_onGrid? (fine : (10 : ℚ) ^ step <
    2 * (x.neighbourhood.middle - x.neighbourhood.low) * 2 ^ x.neighbourhood.unit) :
    (x.neighbourhood.onGrid? step).isSome = true := by
  rw [onGrid?_eq]
  simp only [Option.isSome_map, List.find?_isSome, decide_eq_true_eq]
  generalize eq : x.neighbourhood.middle * _ / _ = q
  have down : 0 < Nat.pow 2 (-x.neighbourhood.unit).toNat * Nat.pow 10 step.toNat := by
    simp only [Nat.pow_eq]
    positivity
  have least : (q : ℚ) * 10 ^ step ≤ x.neighbourhood.middle * 2 ^ x.neighbourhood.unit := by
    rw [← (grid_compare _ _ _ _).2, ← eq]
    exact Nat.div_mul_le_self _ _
  have most : x.neighbourhood.middle * 2 ^ x.neighbourhood.unit < (q + 1 : ℚ) * 10 ^ step := by
    have compare := (grid_compare x.neighbourhood.middle (q + 1) x.neighbourhood.unit step).2
    push_cast at compare
    rw [← not_le, ← compare, not_le, ← eq]
    exact Nat.lt_mul_of_div_lt (Nat.lt_succ_self _) down
  have spread : (x.neighbourhood.middle : ℚ) - x.neighbourhood.low ≤
      x.neighbourhood.high - x.neighbourhood.middle := by
    have : x.neighbourhood.middle + x.neighbourhood.middle ≤
        x.neighbourhood.high + x.neighbourhood.low := by
      simp only [neighbourhood]
      split <;> omega
    have : (x.neighbourhood.middle : ℚ) + x.neighbourhood.middle ≤
        x.neighbourhood.high + x.neighbourhood.low := by exact_mod_cast this
    linarith
  have unit : (0 : ℚ) < 2 ^ x.neighbourhood.unit := by positivity
  have spread' := mul_le_mul_of_nonneg_right spread unit.le
  have grid : (0 : ℚ) < 10 ^ step := by positivity
  by_cases near : x.neighbourhood.middle * 2 ^ x.neighbourhood.unit - q * 10 ^ step <
      (x.neighbourhood.middle - x.neighbourhood.low : ℚ) * 2 ^ x.neighbourhood.unit
  · exact ⟨q, by simp, near_of_between (by rw [Decimal.value]; linarith)
      (by rw [Decimal.value]; linarith)⟩
  · refine ⟨q + 1, by simp, near_of_between ?_ ?_⟩ <;> rw [Decimal.value] <;> push_cast <;> linarith

/-- In the range of the numbers the estimate of the logarithm is at most one too high: the decimal
logarithm of two lies between 28 / 93 and 31 / 103. -/
theorem estimate_le {k e : ℤ} (range : -1101 < k ∧ k < 1101) (estimate : e * 100000 ≤ k * 30103) :
    (10 : ℚ) ^ (e - 1) ≤ 2 ^ (k - 1) := by
  rcases lt_or_ge (e - 1) 0 with below | above
  · obtain ⟨j, eq⟩ := Int.eq_ofNat_of_zero_le (by omega : 0 ≤ -(e - 1))
    obtain rfl : e = 1 - j := by omega
    have powers : 2 ^ (1 - k).toNat ≤ 10 ^ j := by
      refine (Nat.pow_le_pow_iff_left (n := 28) (by norm_num)).mp ?_
      calc (2 ^ (1 - k).toNat) ^ 28 ≤ 2 ^ (93 * j) := by
            rw [← pow_mul]
            exact Nat.pow_le_pow_right (by norm_num) (by omega)
        _ = (2 ^ 93) ^ j := pow_mul 2 93 j
        _ ≤ (10 ^ 28) ^ j := Nat.pow_le_pow_left (by norm_num) j
        _ = (10 ^ j) ^ 28 := by rw [← pow_mul, ← pow_mul, mul_comm]
    calc (10 : ℚ) ^ (1 - (j : ℤ) - 1) = ((10 ^ j : ℕ) : ℚ)⁻¹ := by
          rw [show 1 - (j : ℤ) - 1 = -j by ring, zpow_neg, zpow_natCast, Nat.cast_pow, Nat.cast_ofNat]
      _ ≤ ((2 ^ (1 - k).toNat : ℕ) : ℚ)⁻¹ := inv_anti₀ (by positivity) (by exact_mod_cast powers)
      _ = 2 ^ (-((1 - k).toNat : ℤ)) := by
          rw [zpow_neg, zpow_natCast, Nat.cast_pow, Nat.cast_ofNat]
      _ ≤ 2 ^ (k - 1) := zpow_le_zpow_right₀ (by norm_num) (by omega)
  · obtain ⟨m, eq⟩ := Int.eq_ofNat_of_zero_le above
    obtain ⟨i, eq'⟩ := Int.eq_ofNat_of_zero_le (by omega : 0 ≤ k - 1)
    have powers : 10 ^ m ≤ 2 ^ i := by
      refine (Nat.pow_le_pow_iff_left (n := 31) (by norm_num)).mp ?_
      calc (10 ^ m) ^ 31 = (10 ^ 31) ^ m := by rw [← pow_mul, ← pow_mul, mul_comm]
        _ ≤ (2 ^ 103) ^ m := Nat.pow_le_pow_left (by norm_num) m
        _ = 2 ^ (103 * m) := (pow_mul 2 103 m).symm
        _ ≤ 2 ^ (i * 31) := Nat.pow_le_pow_right (by norm_num) (by omega)
        _ = (2 ^ i) ^ 31 := pow_mul 2 i 31
    rw [eq, eq']
    exact_mod_cast powers

/-- Nor is it ever too low by more than one. -/
theorem le_estimate {k e : ℤ} (range : -1101 < k ∧ k < 1101)
    (estimate : k * 30103 < (e + 1) * 100000) : (2 : ℚ) ^ (k + 1) ≤ 10 ^ (e + 2) := by
  have inverse := estimate_le (k := -k) (e := -(e + 1)) ⟨by omega, by omega⟩ (by omega)
  rw [show -(e + 1) - 1 = -(e + 2) by ring, show -k - 1 = -(k + 1) by ring, zpow_neg, zpow_neg] at inverse
  exact (inv_le_inv₀ (by positivity) (by positivity)).mp inverse

/-- The exponent of the leading digit. -/
theorem leadingDecimal_bounds (some : 0 < n) (positive : 0 < d)
    (range : (2 : ℚ) ^ (-1100 : ℤ) ≤ n / d ∧ (n / d : ℚ) ≤ 2 ^ (1100 : ℤ)) :
    (10 : ℚ) ^ leadingDecimal n d ≤ n / d ∧ (n / d : ℚ) < 10 ^ (leadingDecimal n d + 1) := by
  obtain ⟨least, greatest⟩ := ratio_log2 some positive
  have reach (e : ℤ) := powerLe_iff (b := 10) (n := n) (e := e) (by norm_num) positive
  push_cast at reach
  generalize log : (n.log2 : ℤ) - d.log2 = k at *
  have below : -1100 < k + 1 :=
    (zpow_lt_zpow_iff_right₀ (by norm_num)).mp (range.1.trans_lt greatest)
  have above : k - 1 < 1100 := (zpow_lt_zpow_iff_right₀ (by norm_num)).mp (least.trans_le range.2)
  have range : -1101 < k ∧ k < 1101 := ⟨by omega, by omega⟩
  unfold leadingDecimal
  simp only [log]
  split
  next high =>
    rw [add_assoc]
    exact ⟨(reach _).mp high,
      greatest.trans_le (le_estimate range (Int.lt_ediv_add_one_mul_self _ (by norm_num)))⟩
  next low =>
  split
  next exact' => exact ⟨(reach _).mp exact', not_le.mp (mt (reach _).mpr low)⟩
  next low' =>
    rw [sub_add_cancel]
    exact ⟨(estimate_le range (Int.ediv_mul_le _ (by norm_num))).trans least.le,
      not_le.mp (mt (reach _).mpr low')⟩

/-- How small a number other than zero is. -/
theorem le_magnitude (positive : 0 < x.significand) :
    (2 : ℚ) ^ (-1074 : ℤ) ≤ x.significand * 2 ^ x.exponent := by
  obtain ⟨-, least, -⟩ := x.significand_bounds
  have one : (1 : ℚ) ≤ x.significand := by exact_mod_cast positive
  calc (2 : ℚ) ^ (-1074 : ℤ) ≤ 2 ^ x.exponent := zpow_le_zpow_right₀ (by norm_num) least
    _ ≤ x.significand * 2 ^ x.exponent := le_mul_of_one_le_left (by positivity) one

/-- Seventeen digits are finer than any neighbourhood. -/
theorem middle_lt (positive : 0 < x.significand) : (x.neighbourhood.middle : ℚ) <
    2 * (x.neighbourhood.middle - x.neighbourhood.low) * 10 ^ 16 := by
  obtain ⟨small, -, -⟩ := x.significand_bounds
  have apart : x.neighbourhood.middle + 2 * x.neighbourhood.low * 10 ^ 16 <
      2 * x.neighbourhood.middle * 10 ^ 16 := by
    simp only [neighbourhood]
    split
    next edge =>
      have power : x.significand = 2 ^ 52 := by simp [significand, edge.1, show x.field ≠ 0 by omega]
      rw [power]
      norm_num
    next => omega
  have apart : (x.neighbourhood.middle + 2 * x.neighbourhood.low * 10 ^ 16 : ℚ) <
      2 * x.neighbourhood.middle * 10 ^ 16 := by exact_mod_cast apart
  linarith

/-- The power of ten with which the search begins. -/
theorem leadingDecimal_middle (finite : x.isFinite = true) (positive : 0 < x.significand) :
    let b := x.neighbourhood
    let top := leadingDecimal (b.middle * Nat.pow 2 b.unit.toNat) (Nat.pow 2 (-b.unit).toNat)
    (10 : ℚ) ^ top ≤ b.middle * 2 ^ b.unit ∧ (b.middle * 2 ^ b.unit : ℚ) < 10 ^ (top + 1) := by
  intro b top
  have least := le_magnitude positive
  have greatest := magnitude_le finite
  have unit : (0 : ℚ) < 2 ^ x.exponent := by positivity
  have ratio : ((b.middle * Nat.pow 2 b.unit.toNat : ℕ) : ℚ) / (Nat.pow 2 (-b.unit).toNat : ℕ) =
      b.middle * 2 ^ b.unit := by
    rw [ratio_eq, Nat.cast_ofNat]
  rw [← ratio]
  refine leadingDecimal_bounds (by simp [b, neighbourhood, positive]) (by simp) ?_
  rw [ratio, middle_mul]
  constructor
  · exact (zpow_le_zpow_right₀ (by norm_num) (by norm_num)).trans least
  · calc (x.significand : ℚ) * 2 ^ x.exponent ≤ (x.significand + 1) * 2 ^ x.exponent := by linarith
      _ ≤ 2 ^ (1024 : ℤ) := greatest
      _ ≤ 2 ^ (1100 : ℤ) := zpow_le_zpow_right₀ (by norm_num) (by norm_num)

/-- The search succeeds on one of seventeen grids, of which the finest has points up to the
seventeenth power of ten. -/
theorem shortest_onGrid (finite : x.isFinite = true) (positive : 0 < x.significand) :
    ∃ step, x.neighbourhood.onGrid? step = some x.shortest ∧
      (x.neighbourhood.middle * 2 ^ x.neighbourhood.unit : ℚ) < 10 ^ (17 : ℤ) * 10 ^ step := by
  obtain ⟨lead, most⟩ := leadingDecimal_middle finite positive
  unfold shortest
  simp only at lead ⊢
  generalize leadingDecimal _ _ = top at *
  have fine : (10 : ℚ) ^ (top - 16) <
      2 * (x.neighbourhood.middle - x.neighbourhood.low) * 2 ^ x.neighbourhood.unit := by
    have apart := mul_lt_mul_of_pos_right (middle_lt positive)
      (show (0 : ℚ) < 2 ^ x.neighbourhood.unit by positivity)
    rw [zpow_sub₀ (by norm_num), div_lt_iff₀ (by norm_num)]
    norm_num at apart ⊢
    linarith
  cases found : (List.range 17).findSome? fun (n : ℕ) => x.neighbourhood.onGrid? (top - n) with
  | none =>
    have finest := List.findSome?_eq_none_iff.mp found 16 (by simp)
    have point := isSome_onGrid? fine
    push_cast at finest
    rw [finest] at point
    cases point
  | some decimal =>
    obtain ⟨n, member, given⟩ := List.exists_of_findSome?_eq_some found
    have few : n < 17 := List.mem_range.mp member
    refine ⟨top - n, given, most.trans_le ?_⟩
    rw [← zpow_add₀ (by norm_num)]
    exact zpow_le_zpow_right₀ (by norm_num) (by omega)

/-- The shortest decimal lies in the neighbourhood of the number. -/
theorem shortest_near (finite : x.isFinite = true) (positive : 0 < x.significand) :
    x.Near x.shortest.value := by
  obtain ⟨step, given, -⟩ := shortest_onGrid finite positive
  exact near_of_onGrid? given

theorem divNearest_le (n d : ℕ) : divNearest n d ≤ n / d + 1 := by
  unfold divNearest
  simp only
  split <;> omega

/-- The shortest decimal has at most seventeen digits. -/
theorem shortest_digits_le (finite : x.isFinite = true) (positive : 0 < x.significand) :
    x.shortest.digits ≤ 10 ^ 17 := by
  obtain ⟨step, given, most⟩ := shortest_onGrid finite positive
  rw [onGrid?_eq] at given
  obtain ⟨k, found, eq⟩ := Option.map_eq_some_iff.mp given
  have member := List.mem_of_find?_eq_some found
  generalize quotient : x.neighbourhood.middle * _ / _ = q at member
  have bound : q < 10 ^ 17 := by
    have down : 0 < Nat.pow 2 (-x.neighbourhood.unit).toNat * Nat.pow 10 step.toNat := by
      simp only [Nat.pow_eq]
      positivity
    rw [← quotient, Nat.div_lt_iff_lt_mul down]
    have compare := (grid_compare x.neighbourhood.middle (10 ^ 17) x.neighbourhood.unit step).2
    rw [← not_le, compare, not_le]
    exact_mod_cast most
  have nearest := divNearest_le (x.neighbourhood.middle *
    (Nat.pow 2 x.neighbourhood.unit.toNat * Nat.pow 10 (-step).toNat))
    (Nat.pow 2 (-x.neighbourhood.unit).toNat * Nat.pow 10 step.toNat)
  rw [quotient] at nearest
  have digits : x.shortest.digits = k := congrArg Decimal.digits eq.symm
  rw [digits]
  simp only [List.mem_cons, List.not_mem_nil, or_false] at member
  omega

end WalletSession.Binary64
