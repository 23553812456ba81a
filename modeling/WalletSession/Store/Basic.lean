import WalletSession.AuthError
import WalletSession.Token

/-! Where the record of a session outlives the process. Reading never fails: what is not a record
counts as none. Writing and removing may fail, and a failure leaves the record as it was. -/
namespace WalletSession

class TokenStore (σ : Type) where
  /-- The stored record, or the empty one. -/
  load : σ → SessionToken × σ
  save : σ → SessionToken → Except AuthError Unit × σ
  /-- Removing a record that is not there succeeds. -/
  clear : σ → Except AuthError Unit × σ

namespace SessionToken

/-- The record that a stored text holds. -/
def ofRecord? (raw : String) : Option SessionToken :=
  (Wire.decode? raw : Option SessionToken).map normalized

end SessionToken

end WalletSession
