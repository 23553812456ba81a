/-! UTF-8 text from bytes that may be no UTF-8: every ill-formed part counts as one replacement
character, where a part is as long as it could still have begun a character. -/
namespace WalletSession.Text.Utf8

/-- What a first byte announces: how many bytes follow, its own bits, and the bounds of the second
byte. -/
structure Lead where
  following : Nat
  bits : Nat
  low : Nat
  high : Nat

def lead? (b : Nat) : Option Lead :=
  if b < 0x80 then some ⟨0, b, 0, 0⟩
  else if 0xc2 ≤ b ∧ b ≤ 0xdf then some ⟨1, b - 0xc0, 0x80, 0xbf⟩
  else if b = 0xe0 then some ⟨2, 0, 0xa0, 0xbf⟩
  else if b = 0xed then some ⟨2, 13, 0x80, 0x9f⟩
  else if 0xe1 ≤ b ∧ b ≤ 0xef then some ⟨2, b - 0xe0, 0x80, 0xbf⟩
  else if b = 0xf0 then some ⟨3, 0, 0x90, 0xbf⟩
  else if 0xf1 ≤ b ∧ b ≤ 0xf3 then some ⟨3, b - 0xf0, 0x80, 0xbf⟩
  else if b = 0xf4 then some ⟨3, 4, 0x80, 0x8f⟩
  else none

/-- A reader between two bytes: no character is open, or one that needs `left` more bytes, of
which the next lies between `low` and `high`. -/
inductive State
  | between
  | inside (left value low high : Nat)

def replacement : Char := '\ufffd'

/-- The first byte of a character, or of nothing. -/
def begin (out : List Char) (b : Nat) : State × List Char :=
  match lead? b with
  | none => (.between, replacement :: out)
  | some l =>
    if l.following = 0 then (.between, .ofNat b :: out)
    else (.inside l.following l.bits l.low l.high, out)

/-- One more byte; characters are collected newest first. -/
def step (s : State × List Char) (b : Nat) : State × List Char :=
  match s with
  | (.between, out) => begin out b
  | (.inside left value low high, out) =>
    if low ≤ b ∧ b ≤ high then
      let value := 64 * value + (b - 0x80)
      if left ≤ 1 then (.between, .ofNat value :: out)
      else (.inside (left - 1) value 0x80 0xbf, out)
    else begin (replacement :: out) b

def finish : State × List Char → List Char
  | (.between, out) => out.reverse
  | (.inside .., out) => (replacement :: out).reverse

def lossy (bytes : List UInt8) : String :=
  .ofList (finish (bytes.foldl (fun s b => step s b.toNat) (.between, [])))

end WalletSession.Text.Utf8
