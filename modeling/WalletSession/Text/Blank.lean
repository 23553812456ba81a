/-! White space as Unicode defines it, and cutting it and other characters off the ends of a
text. -/
namespace WalletSession

/-- The characters with the Unicode property White_Space. -/
def isBlank (c : Char) : Bool :=
  let n := c.toNat
  (0x09 ≤ n && n ≤ 0x0d) || n == 0x20 || n == 0x85 || n == 0xa0 || n == 0x1680 ||
    (0x2000 ≤ n && n ≤ 0x200a) || n == 0x2028 || n == 0x2029 || n == 0x202f || n == 0x205f ||
    n == 0x3000

namespace Text

def dropEnd (p : Char → Bool) (cs : List Char) : List Char :=
  (cs.reverse.dropWhile p).reverse

def trimChars (cs : List Char) : List Char := dropEnd isBlank (cs.dropWhile isBlank)

/-- Without the white space at its ends. -/
def trim (s : String) : String := .ofList (trimChars s.toList)

/-- Without the slashes at its end. -/
def dropSlashes (s : String) : String := .ofList (dropEnd (· == '/') s.toList)

end Text

end WalletSession
