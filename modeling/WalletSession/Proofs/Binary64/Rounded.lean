import WalletSession.Proofs.Binary64.Nearest

/-! Rounding to nearest. What a ratio rounds to is the one number in whose neighbourhood it lies, or an
infinity if it lies so far out that it would round to the power of two after the greatest number. No
magnitude rounds to two numbers, and so two ways of rounding it agree. -/
namespace WalletSession.Binary64

/-- Halfway from the greatest number, whose significand has 53 binary ones, to the power of two that
would follow it. -/
def overflow : ℚ := (2 ^ 53 - 1 / 2) * 2 ^ (971 : ℤ)

/-- The number nearest to a magnitude, with a sign. -/
inductive RoundsTo (negative : Bool) (r : ℚ) : Binary64 → Prop
  | near {x : Binary64} (sign : x.negative = negative) (finite : x.isFinite = true) (near : x.Near r) :
      RoundsTo negative r x
  | tooLarge (large : overflow ≤ r) : RoundsTo negative r (infinity negative)

section Signed

variable {negative : Bool} {magnitude : ℕ}

theorem word_signed (small : magnitude < 2 ^ 63) :
    (signed negative magnitude).word = if negative then 2 ^ 63 + magnitude else magnitude := by
  rw [word, signed, UInt64.toNat_ofNat_of_lt']
  · rfl
  · rw [UInt64.size]
    simp only [Nat.pow_eq]
    split <;> omega

theorem negative_signed (small : magnitude < 2 ^ 63) :
    (signed negative magnitude).negative = negative := by
  rw [Binary64.negative, word_signed small]
  cases negative with
  | true => simp
  | false => simpa using small

/-- The bits below the sign are those that were put there. -/
theorem rank_signed (small : magnitude < 2 ^ 63) :
    (signed negative magnitude).field * Nat.pow 2 52 + (signed negative magnitude).fraction =
      magnitude := by
  simp only [field, fraction, word_signed small, Nat.pow_eq]
  split <;> omega

theorem isFinite_signed_iff (small : magnitude < 2 ^ 63) :
    (signed negative magnitude).isFinite = true ↔ magnitude < 2047 * Nat.pow 2 52 := by
  simp only [isFinite, field, word_signed small, Nat.pow_eq, bne_iff_ne]
  split <;> omega

end Signed

section Ratios

variable {x y : Binary64} {negative : Bool} {n d : ℕ} {r : ℚ}

/-- Twice the distance from the nearest integer is at most the divisor, and just the divisor only if the
integer is even. -/
theorem divNearest_spec (n : ℕ) (positive : 0 < d) :
    2 * divNearest n d * d ≤ 2 * n + d ∧ 2 * n ≤ 2 * divNearest n d * d + d ∧
      (2 * divNearest n d * d = 2 * n + d ∨ 2 * n = 2 * divNearest n d * d + d →
        divNearest n d % 2 = 0) := by
  have split := Nat.div_add_mod n d
  have small := Nat.mod_lt n positive
  have twice (q : ℕ) : 2 * q * d = 2 * (d * q) := by ring
  rw [twice]
  unfold divNearest
  simp only
  split
  next => omega
  next =>
    rw [Nat.mul_succ]
    omega

/-- The nearest integer is at most a half away, and exactly a half only if it is even. -/
theorem divNearest_bounds (n : ℕ) (positive : 0 < d) :
    (divNearest n d : ℚ) - 1 / 2 ≤ n / d ∧ (n / d : ℚ) ≤ divNearest n d + 1 / 2 ∧
      ((n / d : ℚ) = divNearest n d - 1 / 2 ∨ (n / d : ℚ) = divNearest n d + 1 / 2 →
        divNearest n d % 2 = 0) := by
  have den : (0 : ℚ) < d := by positivity
  obtain ⟨low, high, tie⟩ := divNearest_spec n positive
  generalize divNearest n d = c at *
  have low : (2 * c * d : ℚ) ≤ 2 * n + d := by exact_mod_cast low
  have high : (2 * n : ℚ) ≤ 2 * c * d + d := by exact_mod_cast high
  rw [le_div_iff₀ den, div_le_iff₀ den, div_eq_iff den.ne', div_eq_iff den.ne']
  refine ⟨by linarith, by linarith, ?_⟩
  rintro (below | above)
  · have edge : (2 * c * d : ℚ) = 2 * n + d := by linarith
    exact tie (.inl (by exact_mod_cast edge))
  · have edge : (2 * n : ℚ) = 2 * c * d + d := by linarith
    exact tie (.inr (by exact_mod_cast edge))

/-- A magnitude that is no further from the significand than half a unit is near to the number. -/
theorem near_of_scaled (nonneg : 0 ≤ r) (low : (x.significand : ℚ) - 1 / 2 ≤ r / 2 ^ x.exponent)
    (high : r / 2 ^ x.exponent ≤ x.significand + 1 / 2)
    (tie : r / 2 ^ x.exponent = x.significand - 1 / 2 ∨ r / 2 ^ x.exponent = x.significand + 1 / 2 →
      x.significand % 2 = 0)
    (close : x.fraction = 0 → 1 < x.field → (x.significand : ℚ) - 1 / 4 ≤ r / 2 ^ x.exponent) :
    x.Near r := by
  have power : (0 : ℚ) < 2 ^ x.exponent := by positivity
  have quarter : (2 : ℚ) ^ (x.exponent - 2) = 2 ^ x.exponent / 4 := by
    rw [zpow_sub₀ (by norm_num)]
    norm_num
  have even : x.neighbourhood.closed = true ↔ x.significand % 2 = 0 := beq_iff_eq
  rw [Near]
  simp only [← Bool.not_eq_true, even]
  simp only [neighbourhood, quarter]
  generalize (2 : ℚ) ^ x.exponent = u at *
  rw [div_eq_iff power.ne', div_eq_iff power.ne'] at tie
  rw [le_div_iff₀ power] at low close
  rw [div_le_iff₀ power] at high
  push_cast
  by_cases narrow : x.fraction = 0 ∧ 1 < x.field
  · have edge : x.significand = 2 ^ 52 := by
      have wide : x.field ≠ 0 := by omega
      simp [significand, wide, narrow.1]
    have close := close narrow.1 narrow.2
    rw [if_pos narrow, Nat.cast_sub (by omega)]
    push_cast
    exact ⟨by linarith, by linarith, fun odd => absurd (by omega) odd⟩
  · rw [if_neg narrow]
    rcases Nat.eq_zero_or_pos x.significand with none | positive
    · have inside : r ≤ (4 * x.significand + 2) * (u / 4) := by linarith
      rw [none] at inside ⊢
      exact ⟨by simpa using nonneg, inside, fun odd => absurd rfl odd⟩
    · rw [Nat.cast_sub (by omega)]
      push_cast
      refine ⟨by linarith, by linarith, fun odd => ⟨fun below => ?_, fun above => ?_⟩⟩
      · exact odd (tie (.inl (by linarith)))
      · exact odd (tie (.inr (by linarith)))

/-- In units of its last place a magnitude has at most 53 binary digits, and just as many unless it is
too small for them. -/
theorem scaled_bounds (positive : 0 < r) :
    let unit := max (Int.log 2 r - 52) (-1074)
    r / 2 ^ unit < 2 ^ 53 ∧ (-1074 < unit → 2 ^ 52 ≤ r / 2 ^ unit) := by
  intro unit
  have power : (0 : ℚ) < 2 ^ unit := by positivity
  have above := Int.lt_zpow_succ_log_self (b := 2) (by norm_num) r
  have below := Int.zpow_log_le_self (b := 2) (by norm_num) positive
  push_cast at above below
  rw [div_lt_iff₀ power, le_div_iff₀ power]
  constructor
  · calc r < 2 ^ (Int.log 2 r + 1) := above
      _ ≤ 2 ^ (53 + unit) := zpow_le_zpow_right₀ (by norm_num) (by omega)
      _ = 2 ^ 53 * 2 ^ unit := zpow_add₀ (by norm_num) 53 unit
  · intro normal
    calc (2 : ℚ) ^ 52 * 2 ^ unit = 2 ^ (52 + unit) := (zpow_add₀ (by norm_num) 52 unit).symm
      _ = 2 ^ Int.log 2 r := by
        congr 1
        omega
      _ ≤ r := below

/-- A count of units, as rounding makes it of a magnitude. -/
structure IsCount (r : ℚ) (unit : ℤ) (count : ℕ) : Prop where
  least : -1074 ≤ unit
  scaled : r / 2 ^ unit < 2 ^ 53 ∧ (-1074 < unit → 2 ^ 52 ≤ r / 2 ^ unit)
  low : (count : ℚ) - 1 / 2 ≤ r / 2 ^ unit
  high : r / 2 ^ unit ≤ count + 1 / 2
  tie : r / 2 ^ unit = count - 1 / 2 ∨ r / 2 ^ unit = count + 1 / 2 → count % 2 = 0

namespace IsCount

variable {unit : ℤ} {count : ℕ}

theorem le (counts : IsCount r unit count) : count ≤ 2 ^ 53 := by
  obtain ⟨-, ⟨small, -⟩, low, -, -⟩ := counts
  have next : (count : ℚ) < 2 ^ 53 + 1 := by linarith
  have next : count < 2 ^ 53 + 1 := by exact_mod_cast next
  omega

theorem ge (counts : IsCount r unit count) (normal : -1074 < unit) : 2 ^ 52 ≤ count := by
  obtain ⟨-, ⟨-, large⟩, -, high, -⟩ := counts
  have large := large normal
  have next : (2 ^ 52 : ℚ) < count + 1 := by linarith
  have next : 2 ^ 52 < count + 1 := by exact_mod_cast next
  omega

/-- The number that comes so many places after zero has the count for its significand, unless that was
rounded up to a power of two. -/
theorem significand_cases (counts : IsCount r unit count)
    (rank : x.field * Nat.pow 2 52 + x.fraction = (unit + 1074).toNat * Nat.pow 2 52 + count) :
    x.exponent = unit ∧ x.significand = count ∨
      x.exponent = unit + 1 ∧ x.significand = 2 ^ 52 ∧ count = 2 ^ 53 := by
  obtain ⟨small, least, normal⟩ := x.significand_bounds
  have le := counts.le
  have ge := counts.ge
  have least' := counts.least
  rw [x.rank_eq] at rank
  simp only [Nat.pow_eq] at rank
  omega

theorem near (counts : IsCount r unit count) (nonneg : 0 ≤ r)
    (rank : x.field * Nat.pow 2 52 + x.fraction = (unit + 1074).toNat * Nat.pow 2 52 + count) :
    x.Near r := by
  rcases counts.significand_cases rank with ⟨own, same⟩ | ⟨next, edge, carried⟩
  · refine near_of_scaled nonneg ?_ ?_ ?_ fun flat wide => ?_
    all_goals rw [own, same]
    · exact counts.low
    · exact counts.high
    · exact counts.tie
    · have large := counts.scaled.2 (by simp only [exponent] at own; omega)
      have edge : count = 2 ^ 52 := by
        rw [← same]
        simp [significand, flat, show x.field ≠ 0 by omega]
      rw [edge]
      push_cast
      linarith
  · have half : r / 2 ^ x.exponent = r / 2 ^ unit / 2 := by
      rw [next, zpow_add₀ (by norm_num)]
      field_simp
    have low := counts.low
    have small := counts.scaled.1
    rw [carried] at low
    push_cast at low
    refine near_of_scaled nonneg ?_ ?_ (fun _ => by omega) fun _ _ => ?_
    all_goals
      rw [half, edge]
      push_cast
      linarith

/-- A count that leads beyond the numbers is one of a magnitude that is too large. -/
theorem overflow_le (counts : IsCount r unit count)
    (large : 2047 * Nat.pow 2 52 ≤ (unit + 1074).toNat * Nat.pow 2 52 + count) : overflow ≤ r := by
  have power : (0 : ℚ) < 2 ^ unit := by positivity
  have le := counts.le
  simp only [Nat.pow_eq] at large
  rcases (show 971 ≤ unit by omega).eq_or_lt with last | beyond
  · have low := counts.low
    have carried : count = 2 ^ 53 := by omega
    rw [carried, le_div_iff₀ power] at low
    push_cast at low
    rwa [← last] at low
  · have large := counts.scaled.2 (by omega)
    rw [le_div_iff₀ power] at large
    calc overflow ≤ 2 ^ 53 * 2 ^ (971 : ℤ) := by
          rw [overflow]
          gcongr
          norm_num
      _ = 2 ^ 52 * 2 ^ (971 + 1 : ℤ) := by
        rw [zpow_add₀ (by norm_num)]
        ring
      _ ≤ 2 ^ 52 * 2 ^ unit := by
        gcongr
        · norm_num
        · omega
      _ ≤ r := large

end IsCount

/-- Half the least number is half a unit of it. -/
theorem scaled_le_half (tiny : r ≤ 2 ^ (-1075 : ℤ)) : r / 2 ^ (-1074 : ℤ) ≤ 1 / 2 := by
  rw [div_le_iff₀ (by positivity), one_div, ← zpow_neg_one, ← zpow_add₀ (by norm_num)]
  exact tiny

theorem near_zero (negative : Bool) (nonneg : 0 ≤ r) (tiny : r ≤ 2 ^ (-1075 : ℤ)) :
    (zero negative).Near r := by
  have none : (zero negative).significand = 0 := by cases negative <;> rfl
  have least : (zero negative).exponent = -1074 := by cases negative <;> rfl
  have ratio : 0 ≤ r / 2 ^ (zero negative).exponent := by positivity
  have half : r / 2 ^ (zero negative).exponent ≤ 1 / 2 := least ▸ scaled_le_half tiny
  refine near_of_scaled nonneg ?_ ?_ (fun _ => by rw [none]) fun _ _ => ?_
  all_goals
    rw [none]
    push_cast
    linarith

/-- A magnitude that is at most half the least number rounds to zero. -/
theorem roundsTo_zero (negative : Bool) (nonneg : 0 ≤ r) (tiny : r ≤ 2 ^ (-1075 : ℤ)) :
    RoundsTo negative r (zero negative) := by
  refine .near ?_ ?_ (near_zero negative nonneg tiny) <;> cases negative <;> rfl

/-- What rounding a ratio gives. -/
theorem roundsTo_ofRatio (negative : Bool) (n : ℕ) (positive : 0 < d) :
    RoundsTo negative (n / d) (ofRatio negative n d) := by
  rcases Nat.eq_zero_or_pos n with rfl | some
  · rw [Nat.cast_zero, zero_div]
    exact roundsTo_zero negative le_rfl (by positivity)
  · have ratio : (0 : ℚ) < n / d := by positivity
    simp only [ofRatio, if_neg some.ne', leadingExponent_eq_log some positive]
    have scaled := scaled_bounds ratio
    generalize eq : max (Int.log 2 (n / d : ℚ) - 52) (-1074) = unit at *
    have down : 0 < d * Nat.pow 2 unit.toNat := Nat.mul_pos positive (by simp)
    obtain ⟨low, high, tie⟩ := divNearest_bounds (n * Nat.pow 2 (-unit).toNat) down
    rw [scaled_ratio] at low high tie
    have counts : IsCount (n / d) unit _ := ⟨by omega, scaled, low, high, tie⟩
    split
    next small =>
      have below := small.trans (show 2047 * Nat.pow 2 52 < 2 ^ 63 by decide)
      exact .near (negative_signed below) ((isFinite_signed_iff below).mpr small)
        (counts.near ratio.le (rank_signed below))
    next large => exact .tooLarge (counts.overflow_le (not_lt.mp large))

theorem roundsTo_nat (negative : Bool) (n : ℕ) : RoundsTo negative n (ofRatio negative n 1) := by
  have rounds := roundsTo_ofRatio negative n Nat.one_pos
  rwa [Nat.cast_one, div_one] at rounds

theorem exponent_le (finite : x.isFinite = true) : x.exponent ≤ 971 := by
  have bound : x.field < Nat.pow 2 11 := Nat.mod_lt _ (by decide)
  have other : x.field ≠ 2047 := by simpa [isFinite] using finite
  simp only [exponent, Nat.pow_eq] at bound ⊢
  omega

/-- The upper edge lies half a unit of the last place above. -/
theorem high_eq (x : Binary64) : ((x.neighbourhood.high : ℕ) : ℚ) * 2 ^ x.neighbourhood.unit =
    (x.significand + 1 / 2) * 2 ^ x.exponent := by
  simp only [neighbourhood]
  rw [zpow_sub₀ (by norm_num)]
  push_cast
  ring

/-- A finite number is near to no magnitude that is too large. -/
theorem Near.lt_overflow (near : x.Near r) (finite : x.isFinite = true) : r < overflow := by
  obtain ⟨-, inside, apart⟩ := near
  obtain ⟨small, -, -⟩ := x.significand_bounds
  have greatest := exponent_le finite
  rw [x.high_eq] at inside apart
  have most : (x.significand : ℚ) + 1 ≤ 2 ^ 53 := by exact_mod_cast small
  have least : (0 : ℚ) ≤ x.significand := by positivity
  have power : (0 : ℚ) < 2 ^ x.exponent := by positivity
  rw [overflow]
  rcases greatest.lt_or_eq with below | last
  · have less : (2 : ℚ) ^ x.exponent < 2 ^ (971 : ℤ) := zpow_lt_zpow_right₀ (by norm_num) below
    calc r ≤ (x.significand + 1 / 2) * 2 ^ x.exponent := inside
      _ ≤ (2 ^ 53 - 1 / 2) * 2 ^ x.exponent := by
        gcongr
        linarith
      _ < (2 ^ 53 - 1 / 2) * 2 ^ (971 : ℤ) := mul_lt_mul_of_pos_left less (by norm_num)
  · rw [last] at inside apart power
    rcases (Nat.le_sub_one_of_lt small).eq_or_lt with ones | fewer
    · -- The greatest significand is odd, so that halfway beyond it is no longer near.
      have odd : x.neighbourhood.closed = false := by simp [neighbourhood, ones]
      have edge : (x.significand : ℚ) + 1 / 2 = 2 ^ 53 - 1 / 2 := by
        rw [ones]
        norm_num
      rw [edge] at inside apart
      exact inside.lt_of_ne (apart odd).2
    · have fewer : (x.significand : ℚ) + 1 < 2 ^ 53 := by
        have fewer : x.significand + 1 < 2 ^ 53 := by omega
        exact_mod_cast fewer
      refine inside.trans_lt (mul_lt_mul_of_pos_right ?_ power)
      linarith

theorem zero_eq (none : x.significand = 0) : zero x.negative = x := by
  have empty : x.field = 0 ∧ x.fraction = 0 := by
    unfold significand at none
    split at none <;> simp_all
  have bits := x.signed_bits
  rw [empty.1, empty.2] at bits
  exact bits

/-- What is near to zero is at most half the least number. -/
theorem Near.le_half (near : x.Near r) (none : x.significand = 0) : r ≤ 2 ^ (-1075 : ℤ) := by
  obtain ⟨-, least, normal⟩ := x.significand_bounds
  have exponent : x.exponent = -1074 := by omega
  obtain ⟨-, high, -⟩ := near
  simp only [neighbourhood, none, exponent] at high
  refine high.trans_eq ?_
  rw [show (-1075 : ℤ) = 1 + (-1074 - 2) by norm_num, zpow_add₀ (by norm_num)]
  norm_num

theorem ofRatio_of_tiny (negative : Bool) (positive : 0 < d) (tiny : (n / d : ℚ) ≤ 2 ^ (-1075 : ℤ)) :
    ofRatio negative n d = zero negative := by
  rcases Nat.eq_zero_or_pos n with rfl | some
  · exact if_pos rfl
  · have ratio : (0 : ℚ) < n / d := by positivity
    have less : (n / d : ℚ) < 2 ^ (-1074 : ℤ) :=
      tiny.trans_lt (zpow_lt_zpow_right₀ (by norm_num) (by norm_num))
    have log := (Int.lt_zpow_iff_log_lt (b := 2) (by norm_num) ratio).mp (by exact_mod_cast less)
    have unit : max (Int.log 2 (n / d : ℚ) - 52) (-1074) = -1074 := by omega
    have none : divNearest (n * Nat.pow 2 (-(-1074 : ℤ)).toNat) (d * Nat.pow 2 (-1074 : ℤ).toNat) =
        0 := by
      have half := scaled_le_half tiny
      have nonneg : 0 ≤ (n / d : ℚ) / 2 ^ (-1074 : ℤ) := by positivity
      rw [← scaled_ratio] at half nonneg
      refine divNearest_eq (Nat.mul_pos positive (by simp)) ?_ ?_ fun _ => rfl
      all_goals
        push_cast at half nonneg ⊢
        linarith
    simp only [ofRatio, if_neg some.ne', leadingExponent_eq_log some positive, unit, none]
    rfl

theorem RoundsTo.nonneg (rounds : RoundsTo negative r x) : 0 ≤ r := by
  cases rounds with
  | near sign finite near => exact le_trans (by positivity) near.1
  | tooLarge large =>
    refine le_trans ?_ large
    rw [overflow]
    exact mul_nonneg (by norm_num) (by positivity)

/-- A ratio is rounded to the one number that it rounds to. -/
theorem ofRatio_eq_iff (positive : 0 < d) :
    ofRatio negative n d = x ↔ RoundsTo negative (n / d) x := by
  constructor
  · rintro rfl
    exact roundsTo_ofRatio negative n positive
  · intro rounds
    cases rounds with
    | near sign finite near =>
      rcases Nat.eq_zero_or_pos x.significand with none | some
      · rw [ofRatio_of_tiny negative positive (near.le_half none), ← sign, zero_eq none]
      · rw [← sign, ofRatio_of_near finite some positive near]
    | tooLarge large =>
      generalize eq : ofRatio negative n d = y
      have rounds := eq ▸ roundsTo_ofRatio negative n positive
      cases rounds with
      | near _ finite near => exact absurd (near.lt_overflow finite) large.not_gt
      | tooLarge => rfl

theorem RoundsTo.unique (rounds : RoundsTo negative r x) (rounds' : RoundsTo negative r y) :
    x = y := by
  have ratio : (r.num.toNat / r.den : ℚ) = r := by
    have whole : (r.num.toNat : ℤ) = r.num := Int.toNat_of_nonneg (Rat.num_nonneg.mpr rounds.nonneg)
    rw [← Int.cast_natCast r.num.toNat, whole, Rat.num_div_den]
  rw [← ratio] at rounds rounds'
  exact ((ofRatio_eq_iff r.den_pos).mpr rounds).symm.trans ((ofRatio_eq_iff r.den_pos).mpr rounds')

/-- Only what is too large rounds to an infinity. -/
theorem RoundsTo.isFinite_iff (rounds : RoundsTo negative r x) : x.isFinite = true ↔ r < overflow := by
  cases rounds with
  | near sign finite near => simp only [finite, near.lt_overflow finite]
  | tooLarge large => simpa [large.not_gt] using (by cases negative <;> rfl)

theorem overflow_bounds : (2 : ℚ) ^ (1023 : ℤ) < overflow ∧ overflow < 2 ^ (1024 : ℤ) := by
  have power : (0 : ℚ) < 2 ^ (971 : ℤ) := by positivity
  have split (k : ℤ) : (2 : ℚ) ^ (k + 971) = 2 ^ k * 2 ^ (971 : ℤ) := zpow_add₀ (by norm_num) k 971
  rw [overflow, show (1023 : ℤ) = 52 + 971 by norm_num, show (1024 : ℤ) = 53 + 971 by norm_num, split,
    split]
  constructor <;> exact mul_lt_mul_of_pos_right (by norm_num) power

/-- The next magnitude after a finite number is at most the power of two after the greatest. -/
theorem magnitude_le (finite : x.isFinite = true) :
    (x.significand + 1 : ℚ) * 2 ^ x.exponent ≤ 2 ^ (1024 : ℤ) := by
  obtain ⟨small, -, -⟩ := x.significand_bounds
  have greatest := exponent_le finite
  have most : (x.significand + 1 : ℚ) ≤ 2 ^ (53 : ℤ) := by exact_mod_cast small
  calc (x.significand + 1 : ℚ) * 2 ^ x.exponent ≤ 2 ^ (53 : ℤ) * 2 ^ (971 : ℤ) := by
        gcongr
        norm_num
    _ = 2 ^ (1024 : ℤ) := by
        rw [← zpow_add₀ (by norm_num)]
        norm_num

/-- Ratios that are not too large round to finite numbers. -/
theorem isFinite_ofRatio (negative : Bool) (positive : 0 < d) (small : (n / d : ℚ) < 2 ^ (1023 : ℤ)) :
    (ofRatio negative n d).isFinite = true :=
  (roundsTo_ofRatio negative n positive).isFinite_iff.mpr (small.trans overflow_bounds.1)

end Ratios

section Decimals

variable {x : Binary64} {negative : Bool} {n digits : ℕ} {e : ℤ}

/-- A count of units as the ratio of two whole numbers. -/
theorem ratio_eq (k b : ℕ) (e : ℤ) :
    ((k * Nat.pow b e.toNat : ℕ) : ℚ) / (Nat.pow b (-e).toNat : ℕ) = k * b ^ e := by
  rw [zpow_eq_div]
  simp only [Nat.pow_eq]
  push_cast
  ring

theorem decimalLength_bounds (some : 0 < n) :
    (10 : ℚ) ^ ((decimalLength n : ℤ) - 1) ≤ n ∧ (n : ℚ) < 10 ^ (decimalLength n : ℤ) := by
  have length : 0 < decimalLength n := Nat.length_toDigits_pos
  have below : n < 10 ^ decimalLength n := (Nat.length_toDigits_le_iff (by decide) length).mp le_rfl
  refine ⟨?_, by exact_mod_cast below⟩
  rcases eq_or_lt_of_le (Nat.succ_le_of_lt length) with one | more
  · rw [← one]
    simpa using Nat.succ_le_of_lt some
  · have above : 10 ^ (decimalLength n - 1) ≤ n := by
      by_contra short
      have := (Nat.length_toDigits_le_iff (b := 10) (by decide) (by omega)).mpr (lt_of_not_ge short)
      unfold decimalLength at *
      omega
    have exponent : (decimalLength n : ℤ) - 1 = (decimalLength n - 1 : ℕ) := by omega
    rw [exponent]
    exact_mod_cast above

/-- How large a decimal is, by the place of its first digit. -/
theorem decimal_bounds (some : 0 < digits) (e : ℤ) :
    (10 : ℚ) ^ (decimalLength digits + e - 1) ≤ digits * 10 ^ e ∧
      (digits * 10 ^ e : ℚ) < 10 ^ (decimalLength digits + e) := by
  obtain ⟨above, below⟩ := decimalLength_bounds some
  have grid : (0 : ℚ) < 10 ^ e := by positivity
  have above := mul_le_mul_of_nonneg_right above grid.le
  have below := mul_lt_mul_of_pos_right below grid
  rw [← zpow_add₀ (by norm_num)] at above below
  rw [add_sub_right_comm]
  exact ⟨above, below⟩

/-- What rounding a decimal gives, also where its power of ten is not formed. -/
theorem roundsTo_ofDecimal (negative : Bool) (digits : ℕ) (e : ℤ) :
    RoundsTo negative (digits * 10 ^ e) (ofDecimal negative digits e) := by
  rcases Nat.eq_zero_or_pos digits with rfl | some
  · rw [ofDecimal, if_pos (.inl rfl), Nat.cast_zero, zero_mul]
    exact roundsTo_zero negative le_rfl (by positivity)
  obtain ⟨above, below⟩ := decimal_bounds some e
  have ten : (1 : ℚ) ≤ 10 := by norm_num
  unfold ofDecimal
  simp only
  split
  next tiny =>
    have tiny := zpow_le_zpow_right₀ ten (tiny.resolve_left some.ne')
    have half : (10 : ℚ) ^ (-324 : ℤ) ≤ 2 ^ (-1075 : ℤ) := by
      have powers : 2 ^ 1075 ≤ 10 ^ 324 := by decide +kernel
      rw [zpow_neg, zpow_neg]
      exact inv_anti₀ (by positivity) (by exact_mod_cast powers)
    exact roundsTo_zero negative (by positivity) (below.le.trans (tiny.trans half))
  next =>
  split
  next large =>
    have large : (10 : ℚ) ^ (309 : ℤ) ≤ 10 ^ (decimalLength digits + e - 1) :=
      zpow_le_zpow_right₀ ten (by omega)
    have huge : (2 : ℚ) ^ (1024 : ℤ) ≤ 10 ^ (309 : ℤ) := by
      have powers : 2 ^ 1024 ≤ 10 ^ 309 := by decide +kernel
      exact_mod_cast powers
    exact .tooLarge (overflow_bounds.2.le.trans (huge.trans (large.trans above)))
  next =>
    have rounds := roundsTo_ofRatio negative (digits * Nat.pow 10 e.toNat)
      (show 0 < Nat.pow 10 (-e).toNat by simp)
    rwa [ratio_eq] at rounds

theorem ofDecimal_eq_iff : ofDecimal negative digits e = x ↔ RoundsTo negative (digits * 10 ^ e) x := by
  constructor
  · rintro rfl
    exact roundsTo_ofDecimal negative digits e
  · exact (roundsTo_ofDecimal negative digits e).unique

end Decimals

end WalletSession.Binary64
