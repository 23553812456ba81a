import WalletSession.Machine.Phase

/-! Causes of failure, their wording and which of them a later attempt may overcome. A missing
wallet and a declined signature are outcomes and not failures. -/
namespace WalletSession

inductive AuthError
  /-- A required variable of the environment is unset or blank. -/
  | missingConfig (var : String)
  | configParse (message : String)
  | httpClientBuild (message : String)
  /-- The request could not be sent, or its answer not be received. -/
  | transport (message : String)
  /-- The answer came with a status outside 200 to 299. -/
  | backend (status : Nat) (detail : String)
  /-- The answer's body has another shape than expected. -/
  | parse (message : String)
  | missingNonce
  | verificationFailed
  | wrongNetwork (expectedRpc expectedChainId : String)
  | topUpFailed
  | wallet (message : String)
  | storage (message : String)
  /-- The handshake has no edge for the event in this phase. -/
  | invalidTransition (phase : Phase) (event : Event)
  deriving DecidableEq, Repr

namespace AuthError

def message : AuthError → String
  | .missingConfig var => "missing config: env var " ++ var ++ " not set"
  | .configParse m => "config parse failed: " ++ m
  | .httpClientBuild m => "HTTP client build failed: " ++ m
  | .transport m => "request failed: " ++ m
  | .backend status detail => status.repr ++ ": " ++ detail
  | .parse m => "response parse failed: " ++ m
  | .missingNonce => "backend issued a token without a nonce"
  | .verificationFailed => "signature verification failed"
  | .wrongNetwork rpc chainId =>
    "Please connect to the Lumio network and switch to the correct chain. RPC: " ++ rpc ++
      ", chain id: " ++ chainId
  | .topUpFailed => "Failed to top up the balance"
  | .wallet m => "wallet error: " ++ m
  | .storage m => "storage error: " ++ m
  | .invalidTransition phase event =>
    "invalid transition: " ++ event.name ++ " in " ++ phase.name

/-- The same call may succeed later: nothing arrived, or the backend is busy or broken. -/
def retryable : AuthError → Bool
  | .transport _ => true
  | .backend status _ => status == 429 || (500 ≤ status && status ≤ 599)
  | _ => false

end AuthError

end WalletSession
