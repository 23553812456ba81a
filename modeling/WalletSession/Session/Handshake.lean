import WalletSession.Session.Call

/-! The handshake: the backend issues a nonce for an account, the wallet signs it, and the backend
checks the signature. Each step takes its edge before it writes, so that a step which was overtaken
by a reset fails instead of writing. -/
namespace WalletSession.Session

variable {σ : Type} [TokenStore σ]

/-- A handshake starts over from nothing. Without a wallet it ends here. -/
def beginHandshake : Act σ (Option Await) := do
  reset
  return if (← get).hasWallet then some .account else none

/-- A failure ends the pending phase in which it occurs. -/
def orFail {α : Type} (work : Act σ α) : Act σ α :=
  tryCatch work fun e => do
    if (← get).state.phase.isPending then giveUp
    throw e

def onAccount (answer : Except AuthError String) : Act σ Await := do
  let account ← receive answer
  follow .start .requestNonce
  return .issue (.withAccount account)

/-- The message to sign is the issued record itself. -/
def onIssued (draft : SessionToken) (answer : Except AuthError SessionToken) : Act σ Await :=
  orFail do
    let issued ← receive answer
    match issued.nonce with
    | none => throw .missingNonce
    | some nonce =>
      follow .nonceIssued .requestSignature
      commit (draft.merge issued)
      return .signature (.challenge (Wire.encode issued) nonce)

/-- A prompt that brings no signature was declined, and the session is forgotten. -/
def onSigned (answer : Except AuthError SignMessageResponse) : Act σ (Option Await) :=
  orFail do
    match ← receive answer with
    | { success := true, result := some signed } => return some (.publicKey signed)
    | _ =>
      let effect ← advance .declined
      apply effect
      return none

def onPublicKey (signed : SignedMessage) (answer : Except AuthError String) : Act σ Await :=
  orFail do
    let publicKey ← receive answer
    follow .signed .submitSignature
    return .verify { signed, publicKey }

/-- A record that is still unverified after the answer is kept, and the handshake fails. -/
def onVerified (answer : Except AuthError SessionToken) : Act σ Unit :=
  orFail do
    let verified ← receive answer
    let token := (← get).state.token.merge verified
    if token.verified then
      follow .accepted .nothing
      commit token
    else
      follow .rejected .nothing
      commit token
      throw .verificationFailed

end WalletSession.Session
