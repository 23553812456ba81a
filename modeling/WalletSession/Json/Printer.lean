import WalletSession.Json.Basic
import WalletSession.Binary64.Decimal

/-! The compact text of a JSON value. Of all characters only the quote, the backslash and the
controls below U+0020 are escaped. -/
namespace WalletSession

/-- Binary numbers show the point in full from a hundred thousandth up to sixteen digits. -/
def Json.numberLayout : Binary64.Layout := ⟨-5, 15⟩

/-- JSON has no word for infinities and undefined numbers. -/
def Binary64.jsonChars (x : Binary64) : List Char :=
  if x.isFinite then x.decimalText Json.numberLayout else ['n', 'u', 'l', 'l']

def Number.chars : Number → List Char
  | .integer n => (if n < 0 then ['-'] else []) ++ Binary64.digitChars n.natAbs
  | .real x => x.jsonChars

namespace Json

def hexDigit (n : Nat) : Char := (Nat.toDigits 16 (n % 16)).headD '0'

def escapeChar (c : Char) : List Char :=
  if c = '"' then ['\\', '"']
  else if c = '\\' then ['\\', '\\']
  else if c = '\n' then ['\\', 'n']
  else if c = '\t' then ['\\', 't']
  else if c = '\r' then ['\\', 'r']
  else if c = '\x08' then ['\\', 'b']
  else if c = '\x0c' then ['\\', 'f']
  else if c.toNat < 0x20 then ['\\', 'u', '0', '0', hexDigit (c.toNat / 16), hexDigit c.toNat]
  else [c]

def quote (s : String) : List Char := '"' :: s.toList.flatMap escapeChar ++ ['"']

mutual

def chars : Json → List Char
  | .null => ['n', 'u', 'l', 'l']
  | .bool true => ['t', 'r', 'u', 'e']
  | .bool false => ['f', 'a', 'l', 's', 'e']
  | .number n => n.chars
  | .string s => quote s
  | .array items => '[' :: itemChars items ++ [']']
  | .object members => '{' :: memberChars members ++ ['}']

def itemChars : List Json → List Char
  | [] => []
  | [v] => chars v
  | v :: rest => chars v ++ ',' :: itemChars rest

def memberChars : List (String × Json) → List Char
  | [] => []
  | [(name, v)] => quote name ++ ':' :: chars v
  | (name, v) :: rest => quote name ++ ':' :: chars v ++ ',' :: memberChars rest

end

def render (v : Json) : String := .ofList v.chars

end Json

end WalletSession
