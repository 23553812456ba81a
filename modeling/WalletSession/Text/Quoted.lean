import WalletSession.Text.Unprintable

/-! A text in double quotes as a message shows it: quotes, backslashes and the usual controls are
written with a backslash, what has no shape by its code in braces, and all else as it is. -/
namespace WalletSession.Text

def quotedChar (c : Char) : List Char :=
  if c = '"' then ['\\', '"']
  else if c = '\\' then ['\\', '\\']
  else if c = '\t' then ['\\', 't']
  else if c = '\n' then ['\\', 'n']
  else if c = '\r' then ['\\', 'r']
  else if c = '\x00' then ['\\', '0']
  else if isUnprintable c then '\\' :: 'u' :: '\x7b' :: Nat.toDigits 16 c.toNat ++ ['\x7d']
  else [c]

def quoted (s : String) : String := .ofList ('"' :: s.toList.flatMap quotedChar ++ ['"'])

end WalletSession.Text
