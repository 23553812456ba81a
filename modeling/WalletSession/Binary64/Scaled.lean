import WalletSession.Binary64.Rounding

/-! Numbers from digits of 64 bits and a power of ten, by way of a table of powers. The digits, the
power and the result are rounded one after the other, so that what comes out may lie beside the number
that is nearest to the exact value. -/
namespace WalletSession.Binary64

/-- The product of two finite numbers. -/
def mul (x y : Binary64) : Binary64 :=
  let e := x.exponent + y.exponent
  ofRatio (x.negative != y.negative) (x.significand * y.significand * Nat.pow 2 e.toNat)
    (Nat.pow 2 (-e).toNat)

/-- The quotient of two finite numbers, the second of which is not zero. -/
def div (x y : Binary64) : Binary64 :=
  let e := x.exponent - y.exponent
  ofRatio (x.negative != y.negative) (x.significand * Nat.pow 2 e.toNat)
    (y.significand * Nat.pow 2 (-e).toNat)

/-- The exponent of the greatest power in the table. -/
def greatestPower : Nat := 308

/-- An entry of the table. -/
def powerOfTen (k : Nat) : Binary64 := ofDecimal false 1 k

/-- Divides by the greatest power as often as is asked, unless nothing is left before, and then by
one more. -/
def divPowers (x : Binary64) : (times last : Nat) → Binary64
  | 0, last => x.div (powerOfTen last)
  | times + 1, last =>
    if x.significand = 0 then x else (x.div (powerOfTen greatestPower)).divPowers times last

/-- About `significand * 10 ^ exponent` with a sign. None on overflow. -/
def ofParts? (negative : Bool) (significand : UInt64) (exponent : Int) : Option Binary64 :=
  let x := ofRatio negative significand.toNat 1
  let k := exponent.natAbs
  if exponent < 0 then
    let times := (k - 1) / greatestPower
    some (x.divPowers times (k - greatestPower * times))
  else if k ≤ greatestPower then
    let product := x.mul (powerOfTen k)
    if product.isFinite then some product else none
  else if significand = 0 then some x
  else none

end WalletSession.Binary64
