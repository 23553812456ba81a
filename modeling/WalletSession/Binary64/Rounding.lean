import WalletSession.Binary64.Basic

/-! Rounding exact ratios and decimals to the nearest number, a half to the even significand.
Overflow gives an infinity and underflow a zero, both with the sign of the argument. -/
namespace WalletSession.Binary64

/-- The integer nearest to `n / d`, a half to the even one. -/
def divNearest (n d : Nat) : Nat :=
  let q := n / d
  let r := n % d
  if 2 * r < d ∨ 2 * r = d ∧ q % 2 = 0 then q else q + 1

/-- `b ^ e * d ≤ n`, also where `e` is negative. -/
def powerLe (b : Nat) (e : Int) (n d : Nat) : Bool :=
  Nat.pow b e.toNat * d ≤ n * Nat.pow b (-e).toNat

/-- The exponent of the greatest power of two that is at most `n / d`. -/
def leadingExponent (n d : Nat) : Int :=
  let e : Int := (n.log2 : Int) - d.log2
  if powerLe 2 e n d then e else e - 1

/-- The number nearest to `n / d`, where `d` is positive. -/
def ofRatio (negative : Bool) (n d : Nat) : Binary64 :=
  if n = 0 then zero negative
  else
    let unit := max (leadingExponent n d - 52) (-1074)
    let count := divNearest (n * Nat.pow 2 (-unit).toNat) (d * Nat.pow 2 unit.toNat)
    let word := (unit + 1074).toNat * Nat.pow 2 52 + count
    if word < 2047 * Nat.pow 2 52 then signed negative word else infinity negative

def ofNat (n : Nat) : Binary64 := ofRatio false n 1

def ofInt (n : Int) : Binary64 := ofRatio (n < 0) n.natAbs 1

/-- How many digits `n` has in base ten. -/
def decimalLength (n : Nat) : Nat := (Nat.toDigits 10 n).length

/-- The number nearest to `digits * 10 ^ exponent`. The two outer cases lie so far out that the
power need not be formed. -/
def ofDecimal (negative : Bool) (digits : Nat) (exponent : Int) : Binary64 :=
  let size := decimalLength digits + exponent
  if digits = 0 ∨ size ≤ -324 then zero negative
  else if 310 ≤ size then infinity negative
  else ofRatio negative (digits * Nat.pow 10 exponent.toNat)
    (Nat.pow 10 (-exponent).toNat)

/-- `x / d` for a positive integer `d`. -/
def divNat (x : Binary64) (d : Nat) : Binary64 :=
  if x.isFinite then
    ofRatio x.negative (x.significand * Nat.pow 2 x.exponent.toNat)
      (d * Nat.pow 2 (-x.exponent).toNat)
  else x

/-- The nearest integer, a half away from zero. -/
def roundHalfAway (x : Binary64) : Binary64 :=
  if x.isFinite && x.exponent < 0 then
    let unit := Nat.pow 2 (-x.exponent).toNat
    ofRatio x.negative ((2 * x.significand + unit) / (2 * unit)) 1
  else x

end WalletSession.Binary64
