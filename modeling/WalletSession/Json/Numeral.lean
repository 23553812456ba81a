import WalletSession.Binary64.Scaled
import WalletSession.Json.Basic
import WalletSession.Text.Digits

/-! Numbers as JSON text writes them, read one character at a time. The digits make one integer of 64
bits with the power of ten that scales it. Of digits that do not fit, those of the whole number raise
the power, and those behind the point count for nothing. What a numeral is worth is asked only where it
is used. -/
namespace WalletSession.Json

/-- `significand * 10 ^ (shift + power)` with its sign; `integral` if neither a point nor an exponent
is written. -/
structure Numeral where
  negative : Bool
  significand : UInt64
  shift : Int
  /-- No more digits are taken before the point, or none behind it. -/
  isFull : Bool
  integral : Bool
  powerNegative : Bool
  power : Nat
  deriving DecidableEq, Repr

namespace Numeral

/-- The power of ten that scales the significand. -/
def exponent (n : Numeral) : Int :=
  n.shift + if n.powerNegative then -(n.power : Int) else n.power

/-- An integer of 64 bits stays one; minus zero is a binary number. None on overflow. -/
def value? (n : Numeral) : Option Number :=
  let isWhole := n.integral && !n.isFull
  if isWhole ∧ n.negative = false then some (.integer n.significand.toNat)
  else if isWhole ∧ 0 < n.significand.toNat ∧ n.significand.toNat ≤ Nat.pow 2 63 then
    some (.integer (-n.significand.toNat))
  else (Binary64.ofParts? n.negative n.significand n.exponent).map .real

end Numeral

/-- How far the reading of a number has come. -/
inductive NumeralPart
  | sign
  | leadingZero
  | whole
  | point
  | places
  | mark
  | powerSign
  | power
  deriving DecidableEq, Repr

/-- A number may end here. -/
def NumeralPart.complete : NumeralPart → Bool
  | .leadingZero | .whole | .places | .power => true
  | .sign | .point | .mark | .powerSign => false

def digit? (c : Char) : Option Nat := if Text.isDigit c then some (Text.digitValue c) else none

namespace Numeral

def start (negative : Bool) : Numeral := ⟨negative, 0, 0, false, true, false, 0⟩

/-- One more digit behind the others, which leaves the power of ten as it is if it is taken. -/
def addDigit (n : Numeral) (d : Nat) (taken left : Int) : Numeral :=
  let next := 10 * n.significand.toNat + d
  if n.isFull || Nat.pow 2 64 ≤ next then { n with isFull := true, shift := n.shift + left }
  else { n with significand := .ofNat next, shift := n.shift + taken }

/-- A digit of the whole number. -/
def addWhole (n : Numeral) (d : Nat) : Numeral := n.addDigit d 0 1

/-- A digit behind the point. -/
def addPlace (n : Numeral) (d : Nat) : Numeral := n.addDigit d (-1) 0

def addPower (n : Numeral) (d : Nat) : Numeral := { n with power := 10 * n.power + d }

/-- The next part of a number after a whole number or its places. -/
def afterDigits (n : Numeral) (pointAllowed : Bool) (c : Char) :
    Option (Numeral × NumeralPart) :=
  if c = '.' ∧ pointAllowed then some ({ n with integral := false, isFull := false }, .point)
  else if c = 'e' ∨ c = 'E' then some ({ n with integral := false }, .mark)
  else none

/-- One more character of a number, if it belongs to it. -/
def extend (n : Numeral) (part : NumeralPart) (c : Char) : Option (Numeral × NumeralPart) :=
  match part, digit? c with
  | .sign, some d => some (n.addWhole d, if d = 0 then .leadingZero else .whole)
  | .whole, some d => some (n.addWhole d, .whole)
  | .point, some d | .places, some d => some (n.addPlace d, .places)
  | .mark, some d | .powerSign, some d | .power, some d => some (n.addPower d, .power)
  | .leadingZero, none | .whole, none => n.afterDigits true c
  | .places, none => n.afterDigits false c
  | .mark, none =>
    if c = '+' then some (n, .powerSign)
    else if c = '-' then some ({ n with powerNegative := true }, .powerSign)
    else none
  | _, _ => none

end Numeral

end WalletSession.Json
