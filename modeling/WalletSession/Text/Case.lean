/-! Letter case in ASCII: capitals become small and all other characters stay. -/
namespace WalletSession.Text

def lowerChar (c : Char) : Char :=
  if 'A' ≤ c ∧ c ≤ 'Z' then .ofNat (c.toNat + 32) else c

def lower (s : String) : String := .ofList (s.toList.map lowerChar)

end WalletSession.Text
