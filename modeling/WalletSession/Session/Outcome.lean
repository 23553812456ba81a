/-! How a handshake ends when it does not fail. -/
namespace WalletSession

inductive HandshakeOutcome
  | verified
  /-- There is no wallet, and the backend was not asked. -/
  | walletUnavailable
  /-- The user turned the signing prompt down. -/
  | userDeclined
  /-- Another call was under way, and its result serves this one too. -/
  | shared (connected : Bool)
  deriving DecidableEq, Repr

namespace HandshakeOutcome

def isVerified : HandshakeOutcome → Bool
  | .verified => true
  | .shared connected => connected
  | .walletUnavailable | .userDeclined => false

def describe : HandshakeOutcome → String
  | .verified => "Verified"
  | .walletUnavailable => "WalletUnavailable"
  | .userDeclined => "UserDeclined"
  | .shared true => "Shared \x7b connected: true \x7d"
  | .shared false => "Shared \x7b connected: false \x7d"

end HandshakeOutcome

end WalletSession
