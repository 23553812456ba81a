import WalletSession.Session.Call

/-! Revalidation: the backend is asked whether the current record still holds. No nonce is
requested and the local one is kept. -/
namespace WalletSession.Session

variable {σ : Type} [TokenStore σ]

/-- Asks about the current record. Without one there is nothing to ask, and the session is
reset. -/
def beginCheck : Act σ (Option Await) := do
  let current := (← get).state.token
  if current.isPresent then
    follow .revalidate .requestStatus
    return some (.status current)
  else
    reset
    return none

/-- The record after an answer about it. -/
def revalidated (current answer : SessionToken) : SessionToken :=
  { current.merge answer with nonce := current.nonce }

/-- The session is connected iff the answer confirms the record; one that it does not confirm is
forgotten. A failed request leaves the record alone. -/
def endCheck (current : SessionToken) (answer : Except AuthError SessionToken) : Act σ Bool :=
  match answer with
  | .error e => do
    giveUp
    setConnected false
    throw e
  | .ok refreshed => do
    let merged := revalidated current refreshed
    if merged.verified then
      follow .stillValid .nothing
      commit merged
      setConnected true
      return true
    else
      let effect ← advance .revoked
      apply effect
      return false

end WalletSession.Session
