import WalletSession.Binary64.Reader
import WalletSession.Json.Basic
import WalletSession.Text.Blank

/-! Balances as they are shown: the chain counts base units, a screen shows whole ones rounded to
four places. A chain writes its count as a number or as text; what cannot be read shows as
zero. -/
namespace WalletSession.Balance

/-- Decimal places of a count in base units. -/
def decimals : Nat := 8

/-- Decimal places that are shown. -/
def displayDecimals : Nat := 4

/-- Base units in display units, a half in the last place away from zero. -/
def toDisplayUnits (baseUnits : Binary64) : Binary64 :=
  ((baseUnits.divNat (Nat.pow 10 (decimals - displayDecimals))).roundHalfAway).divNat
    (Nat.pow 10 displayDecimals)

/-- The count in the first place of the chain's answer. -/
def baseUnits? : Json → Option Binary64
  | .array (.number n :: _) => some n.toBinary64
  | .array (.string s :: _) => Binary64.ofChars? (Text.trimChars s.toList)
  | _ => none

/-- The balance to show for the chain's answer. -/
def ofAnswer (answer : Json) : Binary64 :=
  match baseUnits? answer with
  | some units => toDisplayUnits units
  | none => .zero false

end WalletSession.Balance
