import WalletSession.Binary64.Rounding

/-! The decimal text of a number: the fewest digits that read back as the number, nearest to it
among those, and a layout that says which exponents are written out in full. -/
namespace WalletSession.Binary64

/-- `digits * 10 ^ exponent`. -/
structure Decimal where
  digits : Nat
  exponent : Int
  deriving DecidableEq, Repr

/-- The exponent of the greatest power of ten that is at most `n / d`. -/
def leadingDecimal (n d : Nat) : Int :=
  let e := ((n.log2 : Int) - d.log2) * 30103 / 100000
  if powerLe 10 (e + 1) n d then e + 1 else if powerLe 10 e n d then e else e - 1

/-- The reals that round to a number, and the number, in units of `2 ^ (exponent - 2)`. The ends
belong to the interval iff the significand is even. -/
structure Neighbourhood where
  low : Nat
  middle : Nat
  high : Nat
  closed : Bool
  unit : Int

/-- Below a power of two the numbers lie twice as dense. -/
def neighbourhood (x : Binary64) : Neighbourhood where
  low := 4 * x.significand - if x.fraction = 0 ∧ 1 < x.field then 1 else 2
  middle := 4 * x.significand
  high := 4 * x.significand + 2
  closed := x.significand % 2 == 0
  unit := x.exponent - 2

/-- The decimal on the grid `10 ^ step` that is nearest to the middle of the neighbourhood, if the
neighbourhood has one. A tie goes to the even digit. -/
def Neighbourhood.onGrid? (b : Neighbourhood) (step : Int) : Option Decimal :=
  let up := Nat.pow 2 b.unit.toNat * Nat.pow 10 (-step).toNat
  let down := Nat.pow 2 (-b.unit).toNat * Nat.pow 10 step.toNat
  let inside (k : Nat) : Bool :=
    if b.closed then b.low * up ≤ k * down && k * down ≤ b.high * up
    else b.low * up < k * down && k * down < b.high * up
  let nearest := divNearest (b.middle * up) down
  let below := b.middle * up / down
  [nearest, below, below + 1].find? inside |>.map (⟨·, step⟩)

/-- The shortest decimal: grids are tried from the coarsest on, and seventeen digits always do. -/
def shortest (x : Binary64) : Decimal :=
  let b := x.neighbourhood
  let lead := leadingDecimal (b.middle * Nat.pow 2 b.unit.toNat) (Nat.pow 2 (-b.unit).toNat)
  (List.range 17).findSome? (fun (n : Nat) => b.onGrid? (lead - n)) |>.getD ⟨0, 0⟩

/-- How a decimal is laid out: exponents of the leading digit from `leastPlain` to `greatestPlain`
are written without an exponent. -/
structure Layout where
  leastPlain : Int
  greatestPlain : Int

def zeros (n : Nat) : List Char := List.replicate n '0'

def digitChars (n : Nat) : List Char := Nat.toDigits 10 n

/-- Trailing zeros say nothing in a mantissa. -/
def dropTrailingZeros (ds : List Char) : List Char :=
  (ds.reverse.dropWhile (· == '0')).reverse

/-- At least one digit stands on each side of a point, and an exponent shows its sign. -/
def Layout.write (layout : Layout) (d : Decimal) : List Char :=
  let written := digitChars d.digits
  let lead := d.exponent + written.length - 1
  let ds := dropTrailingZeros written
  if layout.leastPlain ≤ lead ∧ lead ≤ layout.greatestPlain then
    if lead < 0 then '0' :: '.' :: zeros (-lead - 1).toNat ++ ds
    else
      let whole := ds.take (lead.toNat + 1)
      let rest := ds.drop (lead.toNat + 1)
      whole ++ zeros (lead.toNat + 1 - ds.length) ++ '.' :: (if rest = [] then ['0'] else rest)
  else
    let mantissa := ds.take 1 ++ (if ds.length ≤ 1 then [] else '.' :: ds.drop 1)
    mantissa ++ 'e' :: (if lead < 0 then '-' else '+') :: digitChars lead.natAbs

/-- The text of a finite number. -/
def decimalText (layout : Layout) (x : Binary64) : List Char :=
  let sign := if x.negative then ['-'] else []
  if x.significand = 0 then sign ++ ['0', '.', '0'] else sign ++ layout.write x.shortest

end WalletSession.Binary64
