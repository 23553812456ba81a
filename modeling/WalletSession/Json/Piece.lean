/-! The parts of a JSON string as they are written. Escapes by code are kept apart from plain
characters, so that a string which nobody reads need not be valid UTF-16. -/
namespace WalletSession.Json

/-- A part of a string: a character, or a UTF-16 unit given by its code. -/
inductive Piece
  | plain (c : Char)
  | unit (code : Nat)
  deriving DecidableEq, Repr

/-- The characters that the parts stand for. Units of the two surrogate ranges count only in
pairs. -/
def Piece.join : List Piece → Option (List Char)
  | [] => some []
  | .plain c :: rest => (join rest).map (c :: ·)
  | .unit n :: rest =>
    if 0xd800 ≤ n ∧ n < 0xdc00 then
      match rest with
      | .unit m :: rest =>
        if 0xdc00 ≤ m ∧ m < 0xe000 then
          (join rest).map (.ofNat (0x10000 + (n - 0xd800) * 0x400 + (m - 0xdc00)) :: ·)
        else none
      | _ => none
    else if 0xdc00 ≤ n ∧ n < 0xe000 then none
    else (join rest).map (.ofNat n :: ·)

def Piece.text? (pieces : List Piece) : Option String := (join pieces).map .ofList

end WalletSession.Json
