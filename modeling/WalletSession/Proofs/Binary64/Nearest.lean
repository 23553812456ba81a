import Mathlib.Algebra.Order.Field.Power
import Mathlib.Algebra.Order.Floor.Semiring
import Mathlib.Data.Int.Log
import Mathlib.Data.Rat.Floor
import Mathlib.Tactic.FieldSimp
import Mathlib.Tactic.Linarith
import Mathlib.Tactic.Positivity
import Mathlib.Tactic.Ring
import WalletSession.Binary64.Decimal

/-! Rounding a ratio gives the number in whose neighbourhood the ratio lies. -/
namespace WalletSession.Binary64

theorem word_lt (x : Binary64) : x.word < Nat.pow 2 64 := x.bits.toNat_lt

/-- A number is its sign and the bits below it. -/
theorem signed_bits (x : Binary64) :
    signed x.negative (x.field * Nat.pow 2 52 + x.fraction) = x := by
  have bound := x.word_lt
  have whole : (if x.negative then Nat.pow 2 63 + (x.field * Nat.pow 2 52 + x.fraction)
      else x.field * Nat.pow 2 52 + x.fraction) = x.word := by
    simp only [negative, field, fraction, Nat.pow_eq, decide_eq_true_eq] at bound ⊢
    split <;> omega
  rw [signed, whole]
  cases x
  simp [word]

/-- The bits below the sign count the numbers from zero on. -/
theorem rank_eq (x : Binary64) : x.field * Nat.pow 2 52 + x.fraction =
    (x.exponent + 1074).toNat * Nat.pow 2 52 + x.significand := by
  simp only [exponent, significand, Nat.pow_eq]
  split <;> omega

theorem zpow_eq_div (b : ℕ) (e : ℤ) :
    (b : ℚ) ^ e = (b ^ e.toNat : ℕ) / (b ^ (-e).toNat : ℕ) := by
  rcases le_total 0 e with up | down
  · obtain ⟨k, rfl⟩ := Int.eq_ofNat_of_zero_le up
    simp
  · obtain ⟨k, eq⟩ := Int.eq_ofNat_of_zero_le (neg_nonneg.mpr down)
    obtain rfl : e = -k := by omega
    simp

theorem powerLe_iff {b n d : ℕ} {e : ℤ} (base : 0 < b) (positive : 0 < d) :
    powerLe b e n d = true ↔ (b : ℚ) ^ e ≤ n / d := by
  have unit : (0 : ℚ) < (b ^ (-e).toNat : ℕ) := by positivity
  have den : (0 : ℚ) < d := by positivity
  rw [zpow_eq_div, div_le_div_iff₀ unit den, powerLe, decide_eq_true_eq]
  simp only [Nat.pow_eq]
  exact_mod_cast Iff.rfl

/-- The powers of two around the numerator and the denominator bound the ratio. -/
theorem ratio_log2 {n d : ℕ} (some : 0 < n) (positive : 0 < d) :
    (2 : ℚ) ^ ((n.log2 : ℤ) - d.log2 - 1) < n / d ∧
      (n : ℚ) / d < 2 ^ ((n.log2 : ℤ) - d.log2 + 1) := by
  have den : (0 : ℚ) < d := by positivity
  have two : (2 : ℚ) ≠ 0 := by norm_num
  have nLow : (2 : ℚ) ^ n.log2 ≤ n := by exact_mod_cast Nat.log2_self_le some.ne'
  have nHigh : (n : ℚ) < 2 ^ (n.log2 + 1) := by exact_mod_cast Nat.lt_log2_self
  have dLow : (2 : ℚ) ^ d.log2 ≤ d := by exact_mod_cast Nat.log2_self_le positive.ne'
  have dHigh : (d : ℚ) < 2 ^ (d.log2 + 1) := by exact_mod_cast Nat.lt_log2_self
  have low : (2 : ℚ) ^ ((n.log2 : ℤ) - d.log2 - 1) = 2 ^ n.log2 / 2 ^ (d.log2 + 1) := by
    rw [sub_sub, zpow_sub₀ two]
    exact_mod_cast rfl
  have high : (2 : ℚ) ^ ((n.log2 : ℤ) - d.log2 + 1) = 2 ^ (n.log2 + 1) / 2 ^ d.log2 := by
    rw [sub_add_eq_add_sub, zpow_sub₀ two]
    exact_mod_cast rfl
  rw [low, high, div_lt_div_iff₀ (by positivity) den, div_lt_div_iff₀ den (by positivity)]
  constructor
  · calc (2 : ℚ) ^ n.log2 * d < 2 ^ n.log2 * 2 ^ (d.log2 + 1) := by gcongr
      _ ≤ n * 2 ^ (d.log2 + 1) := by gcongr
  · calc (n : ℚ) * 2 ^ d.log2 ≤ n * d := by gcongr
      _ < 2 ^ (n.log2 + 1) * d := by gcongr

theorem leadingExponent_eq_log {n d : ℕ} (some : 0 < n) (positive : 0 < d) :
    leadingExponent n d = Int.log 2 (n / d : ℚ) := by
  obtain ⟨least, greatest⟩ := ratio_log2 some positive
  have ratio : (0 : ℚ) < n / d := by positivity
  have reach := powerLe_iff (b := 2) (n := n) (e := n.log2 - d.log2) (by norm_num) positive
  have below := (Int.zpow_le_iff_le_log (b := 2) (by norm_num) ratio).mp
    (by push_cast; exact least.le)
  have above := (Int.lt_zpow_iff_log_lt (b := 2) (by norm_num) ratio).mp
    (by push_cast; exact greatest)
  rw [Int.zpow_le_iff_le_log (by norm_num) ratio] at reach
  unfold leadingExponent
  simp only [reach]
  split <;> omega

/-- The integer nearest to a ratio, where a tie needs an even one. -/
theorem divNearest_eq_of_le {n d c : ℕ} (positive : 0 < d) (low : 2 * c * d ≤ 2 * n + d)
    (high : 2 * n ≤ 2 * c * d + d)
    (tie : 2 * c * d = 2 * n + d ∨ 2 * n = 2 * c * d + d → c % 2 = 0) : divNearest n d = c := by
  have split := Nat.div_add_mod n d
  have small := Nat.mod_lt n positive
  unfold divNearest
  simp only
  generalize n / d = q at *
  generalize n % d = r at *
  subst split
  have least : q ≤ c := by
    by_contra less
    have : (c + 1) * d ≤ q * d := Nat.mul_le_mul_right d (by omega)
    nlinarith
  have most : c ≤ q + 1 := by
    by_contra more
    have : (q + 2) * d ≤ c * d := Nat.mul_le_mul_right d (by omega)
    nlinarith
  obtain rfl | rfl : c = q ∨ c = q + 1 := by omega
  · have half : 2 * r ≤ d := by nlinarith
    refine if_pos ?_
    rcases half.lt_or_eq with less | even
    · exact .inl less
    · exact .inr ⟨even, tie (.inr (by nlinarith))⟩
  · have half : d ≤ 2 * r := by nlinarith
    refine if_neg ?_
    rintro (less | ⟨even, parity⟩)
    · omega
    · have := tie (.inl (by nlinarith))
      omega

theorem divNearest_eq {n d c : ℕ} (positive : 0 < d) (low : (c : ℚ) - 1 / 2 ≤ n / d)
    (high : (n : ℚ) / d ≤ c + 1 / 2)
    (tie : (n : ℚ) / d = c - 1 / 2 ∨ (n : ℚ) / d = c + 1 / 2 → c % 2 = 0) :
    divNearest n d = c := by
  have den : (0 : ℚ) < d := by positivity
  rw [le_div_iff₀ den] at low
  rw [div_le_iff₀ den] at high
  rw [div_eq_iff den.ne', div_eq_iff den.ne'] at tie
  refine divNearest_eq_of_le positive ?_ ?_ ?_
  · have : (2 * c * d : ℚ) ≤ 2 * n + d := by linarith
    exact_mod_cast this
  · have : (2 * n : ℚ) ≤ 2 * c * d + d := by linarith
    exact_mod_cast this
  · rintro (eq | eq)
    · have : (2 * c * d : ℚ) = 2 * n + d := by exact_mod_cast eq
      exact tie (.inl (by linarith))
    · have : (2 * n : ℚ) = 2 * c * d + d := by exact_mod_cast eq
      exact tie (.inr (by linarith))

/-- The reals that round to a number: as far as halfway to its neighbours, and halfway as well if
its significand is even. -/
def Near (x : Binary64) (r : ℚ) : Prop :=
  let b := x.neighbourhood
  b.low * 2 ^ b.unit ≤ r ∧ r ≤ b.high * 2 ^ b.unit ∧
    (b.closed = false → r ≠ b.low * 2 ^ b.unit ∧ r ≠ b.high * 2 ^ b.unit)

variable {x : Binary64} {n d : ℕ}

theorem fraction_lt (x : Binary64) : x.fraction < Nat.pow 2 52 := Nat.mod_lt _ (by decide)

/-- What is near to a number, in units of its significand. -/
theorem Near.scaled {r : ℚ} (near : x.Near r) (positive : 0 < x.significand) :
    (x.significand : ℚ) - 1 / 2 ≤ r / 2 ^ x.exponent ∧
      r / 2 ^ x.exponent ≤ x.significand + 1 / 2 ∧
      (r / 2 ^ x.exponent = x.significand - 1 / 2 ∨ r / 2 ^ x.exponent = x.significand + 1 / 2 →
        x.significand % 2 = 0) ∧
      (x.fraction = 0 → 1 < x.field → (x.significand : ℚ) - 1 / 4 ≤ r / 2 ^ x.exponent) := by
  obtain ⟨low, high, apart⟩ := near
  have power : (0 : ℚ) < 2 ^ x.exponent := by positivity
  have quarter : (2 : ℚ) ^ (x.exponent - 2) = 2 ^ x.exponent / 4 := by
    rw [zpow_sub₀ (by norm_num)]
    norm_num
  simp only [neighbourhood, quarter] at low high apart
  generalize (2 : ℚ) ^ x.exponent = u at *
  rw [div_eq_iff power.ne', div_eq_iff power.ne', le_div_iff₀ power, div_le_iff₀ power,
    le_div_iff₀ power]
  push_cast at high
  by_cases narrow : x.fraction = 0 ∧ 1 < x.field
  · have even : x.significand % 2 = 0 := by
      have wide : x.field ≠ 0 := by omega
      simp [significand, wide, narrow.1]
    rw [if_pos narrow, Nat.cast_sub (by omega)] at low
    push_cast at low
    exact ⟨by nlinarith, by linarith, fun _ => even, fun _ _ => by linarith⟩
  · rw [if_neg narrow, Nat.cast_sub (by omega)] at low apart
    push_cast at low apart
    refine ⟨by linarith, by linarith, fun tie => ?_, fun flat wide => absurd ⟨flat, wide⟩ narrow⟩
    by_contra odd
    obtain ⟨below, above⟩ := apart (by simp [odd])
    rcases tie with tie | tie
    · exact below (by linarith)
    · exact above (by linarith)

theorem significand_bounds (x : Binary64) : x.significand < 2 ^ 53 ∧
    -1074 ≤ x.exponent ∧ (-1074 < x.exponent → 2 ^ 52 ≤ x.significand ∧ 1 < x.field) := by
  have := x.fraction_lt
  simp only [significand, exponent, Nat.pow_eq] at *
  split <;> omega

theorem scaled_ratio (n d : ℕ) (unit : ℤ) :
    ((n * Nat.pow 2 (-unit).toNat : ℕ) : ℚ) / (d * Nat.pow 2 unit.toNat : ℕ) =
      n / d / 2 ^ unit := by
  have power := zpow_eq_div 2 unit
  push_cast at power
  rw [power]
  simp only [Nat.pow_eq]
  push_cast
  field_simp

/-- The bits below the sign of a finite number are those of no infinity. -/
theorem rank_lt (finite : x.isFinite = true) :
    x.field * Nat.pow 2 52 + x.fraction < 2047 * Nat.pow 2 52 := by
  have bound : x.field < Nat.pow 2 11 := Nat.mod_lt _ (by decide)
  have below := x.fraction_lt
  have other : x.field ≠ 2047 := by simpa [isFinite] using finite
  simp only [Nat.pow_eq] at *
  omega

/-- What is near to a number lies between half its unit and one unit above it. -/
theorem Near.bounds {r : ℚ} (near : x.Near r) (positive : 0 < x.significand) :
    2 ^ x.exponent ≤ 2 * r ∧ r < (x.significand + 1) * 2 ^ x.exponent := by
  obtain ⟨low, high, -, -⟩ := near.scaled positive
  have power : (0 : ℚ) < 2 ^ x.exponent := by positivity
  have one : (1 : ℚ) ≤ x.significand := by exact_mod_cast positive
  rw [le_div_iff₀ power] at low
  rw [div_le_iff₀ power] at high
  have whole := mul_le_mul_of_nonneg_right one power.le
  constructor <;> linarith

theorem Near.pos {r : ℚ} (near : x.Near r) (positive : 0 < x.significand) : 0 < r := by
  have power : (0 : ℚ) < 2 ^ x.exponent := by positivity
  have low := (near.bounds positive).1
  linarith

/-- Counted in its own power of two, what is near to a number has the unit of the number, or half of
it just below a number that is a power of two. -/
theorem Near.unit_cases {r : ℚ} (near : x.Near r) (positive : 0 < x.significand) :
    max (Int.log 2 r - 52) (-1074) = x.exponent ∨
      max (Int.log 2 r - 52) (-1074) = x.exponent - 1 ∧ x.significand = 2 ^ 52 ∧
        2 ^ 52 - 1 / 4 ≤ r / 2 ^ x.exponent ∧ r / 2 ^ x.exponent < 2 ^ 52 := by
  obtain ⟨low, high, -, close⟩ := near.scaled positive
  obtain ⟨small, least, normal⟩ := x.significand_bounds
  have power : (0 : ℚ) < 2 ^ x.exponent := by positivity
  have ratio := near.pos positive
  have reach (k : ℕ) : (2 : ℚ) ^ (x.exponent + k) = 2 ^ k * 2 ^ x.exponent := by
    rw [zpow_add₀ (by norm_num), mul_comm, zpow_natCast]
  have log_lt (k : ℕ) (below : r / 2 ^ x.exponent < 2 ^ k) : Int.log 2 r < x.exponent + k := by
    rw [← Int.lt_zpow_iff_log_lt (by norm_num) ratio, Nat.cast_ofNat, reach]
    exact (div_lt_iff₀ power).mp below
  have le_log (k : ℕ) (above : 2 ^ k ≤ r / 2 ^ x.exponent) : x.exponent + k ≤ Int.log 2 r := by
    rw [← Int.zpow_le_iff_le_log (by norm_num) ratio, Nat.cast_ofNat, reach]
    exact (le_div_iff₀ power).mp above
  have greatest := log_lt 53 (by
    have : (x.significand : ℚ) + 1 ≤ 2 ^ 53 := by exact_mod_cast small
    linarith)
  rcases lt_or_ge (r / 2 ^ x.exponent) (2 ^ 52) with below | above
  · rcases eq_or_ne x.exponent (-1074) with bottom | other
    · have := log_lt 52 below
      omega
    · obtain ⟨large, wide⟩ := normal (by omega)
      have edge : x.significand = 2 ^ 52 := by
        have : (x.significand : ℚ) < 2 ^ 52 + 1 := by linarith
        have : x.significand < 2 ^ 52 + 1 := by exact_mod_cast this
        omega
      have flat : x.fraction = 0 := by
        simp only [significand, if_neg (show x.field ≠ 0 by omega), Nat.pow_eq] at edge
        omega
      have nearby := close flat wide
      rw [edge] at nearby
      push_cast at nearby
      have := log_lt 52 below
      have := le_log 51 (by linarith)
      exact .inr ⟨by omega, edge, nearby, below⟩
  · have := le_log 52 above
    omega

/-- A ratio near to a number rounds to its significand, or just below a power of two to twice as much
in half the unit. -/
theorem round_of_near (positive : 0 < x.significand) (den : 0 < d) (some : 0 < n)
    (near : x.Near (n / d)) :
    let unit := max (leadingExponent n d - 52) (-1074)
    (unit + 1074).toNat * Nat.pow 2 52 +
        divNearest (n * Nat.pow 2 (-unit).toNat) (d * Nat.pow 2 unit.toNat) =
      (x.exponent + 1074).toNat * Nat.pow 2 52 + x.significand := by
  have count (unit : ℤ) : 0 < d * Nat.pow 2 unit.toNat := by
    rw [Nat.pow_eq]
    positivity
  obtain ⟨low, high, tie, -⟩ := near.scaled positive
  obtain ⟨-, least, normal⟩ := x.significand_bounds
  rw [leadingExponent_eq_log some den]
  intro unit
  have counted := scaled_ratio n d unit
  rcases near.unit_cases positive with own | ⟨half, edge, nearby, below⟩
  · rw [show unit = x.exponent from own] at counted ⊢
    rw [divNearest_eq (count _) (by rw [counted]; exact low) (by rw [counted]; exact high)
      (by rw [counted]; exact tie)]
  · have half : unit = x.exponent - 1 := half
    have double : (n / d : ℚ) / 2 ^ unit = 2 * (n / d / 2 ^ x.exponent) := by
      rw [half, zpow_sub₀ (by norm_num)]
      field_simp
    have rounded : divNearest (n * Nat.pow 2 (-unit).toNat) (d * Nat.pow 2 unit.toNat) = 2 ^ 53 := by
      refine divNearest_eq (count _) ?_ ?_ (fun _ => rfl) <;> rw [counted, double] <;> push_cast <;>
        linarith
    have inside : -1074 ≤ unit := le_max_right _ _
    rw [rounded, edge, half]
    simp only [Nat.pow_eq]
    omega

theorem ofRatio_of_near (finite : x.isFinite = true) (positive : 0 < x.significand) (den : 0 < d)
    (near : x.Near (n / d)) : ofRatio x.negative n d = x := by
  have some : 0 < n := by
    rcases Nat.eq_zero_or_pos n with rfl | some
    · simpa using near.pos positive
    · exact some
  have rank := (round_of_near positive den some near).trans x.rank_eq.symm
  simp only [ofRatio, if_neg some.ne', rank, if_pos (rank_lt finite), signed_bits]

end WalletSession.Binary64
