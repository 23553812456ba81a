import WalletSession.Binary64.Rounding
import WalletSession.Text.Case
import WalletSession.Text.Digits

/-! Numbers written by hand: an optional sign, digits with or without a point on either side of
which they may be missing, and an optional power of ten; or the words for infinities and undefined
numbers in any case. -/
namespace WalletSession.Binary64

open Text

/-- The sign in front, if one is written, and what follows it. -/
def takeSign : List Char → Bool × List Char
  | '-' :: rest => (true, rest)
  | '+' :: rest => (false, rest)
  | cs => (false, cs)

/-- A power of ten after its mark: one digit at least, and nothing behind. -/
def power? (cs : List Char) : Option Int :=
  let (negative, ds) := takeSign cs
  if isWholeNumber ds then some (if negative then -digitsValue ds else digitsValue ds) else none

/-- The power that follows the digits; none written counts as zero. -/
def trailingPower? : List Char → Option Int
  | [] => some 0
  | c :: rest => if c = 'e' ∨ c = 'E' then power? rest else none

/-- A number without its sign. -/
def unsigned? (negative : Bool) (cs : List Char) : Option Binary64 :=
  let whole := cs.takeWhile isDigit
  let afterWhole := cs.dropWhile isDigit
  let (places, rest) :=
    match afterWhole with
    | '.' :: more => (more.takeWhile isDigit, more.dropWhile isDigit)
    | _ => ([], afterWhole)
  if whole.isEmpty && places.isEmpty then none
  else
    (trailingPower? rest).map fun power =>
      ofDecimal negative (digitsValue (whole ++ places)) (power - places.length)

def ofChars? (cs : List Char) : Option Binary64 :=
  let (negative, body) := takeSign cs
  let word := body.map lowerChar
  if word = ['i', 'n', 'f'] ∨ word = ['i', 'n', 'f', 'i', 'n', 'i', 't', 'y'] then
    some (infinity negative)
  else if word = ['n', 'a', 'n'] then some nan
  else unsigned? negative body

end WalletSession.Binary64
