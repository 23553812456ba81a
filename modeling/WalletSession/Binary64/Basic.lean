/-! Binary floating-point numbers of 64 bits, taken apart into sign, significand and exponent. The
value of a finite number is `significand * 2 ^ exponent` with its sign. -/
namespace WalletSession

structure Binary64 where
  bits : UInt64
  deriving DecidableEq, Repr

namespace Binary64

def word (x : Binary64) : Nat := x.bits.toNat

def negative (x : Binary64) : Bool := Nat.pow 2 63 ≤ x.word

/-- The eleven bits between the sign and the fraction. -/
def field (x : Binary64) : Nat := x.word / Nat.pow 2 52 % Nat.pow 2 11

def fraction (x : Binary64) : Nat := x.word % Nat.pow 2 52

def isFinite (x : Binary64) : Bool := x.field != 2047

def isNaN (x : Binary64) : Bool := x.field == 2047 && x.fraction != 0

def significand (x : Binary64) : Nat :=
  if x.field = 0 then x.fraction else Nat.pow 2 52 + x.fraction

def exponent (x : Binary64) : Int := (max x.field 1 : Nat) - 1075

/-- The number whose bits below the sign are those of `magnitude`. -/
def signed (negative : Bool) (magnitude : Nat) : Binary64 :=
  ⟨.ofNat (if negative then Nat.pow 2 63 + magnitude else magnitude)⟩

def zero (negative : Bool) : Binary64 := signed negative 0

def infinity (negative : Bool) : Binary64 := signed negative (2047 * Nat.pow 2 52)

def nan : Binary64 := signed false (2047 * Nat.pow 2 52 + Nat.pow 2 51)

instance : Inhabited Binary64 := ⟨zero false⟩

end Binary64

end WalletSession
