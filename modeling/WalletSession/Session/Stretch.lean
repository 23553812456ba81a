import WalletSession.Balance
import WalletSession.Session.Handshake
import WalletSession.Session.Revalidation

/-! Calls as stretches of work between two pauses: how a call begins, what it does once it holds the
single flight, and how it goes on when an answer arrives. -/
namespace WalletSession

namespace Call

/-- What the call returns for a handshake that ended so. -/
def handshakeValue : Call → HandshakeOutcome → Value
  | .handshakeOutcome, o => .outcome o
  | _, o => .flag o.isVerified

/-- What the call returns if it takes over the result of another one. -/
def sharedValue (call : Call) : Value := call.handshakeValue (.shared true)

end Call

namespace Session

variable {σ : Type} [TokenStore σ]

def endHandshake (call : Call) (o : HandshakeOutcome) : Act σ Stop := do
  setConnected o.isVerified
  return .finish (call.handshakeValue o)

def startHandshake (call : Call) : Act σ Stop := do
  match ← beginHandshake with
  | some a => return .wait a
  | none => endHandshake call .walletUnavailable

/-- Connecting goes on to a handshake where a check says no. -/
def afterCheck (call : Call) (valid : Bool) : Act σ Stop :=
  match call, valid with
  | .connect, false => startHandshake .connect
  | .connect, true => do
    setConnected true
    return .finish (.flag true)
  | _, _ => return .finish (.flag valid)

def startCheck (call : Call) : Act σ Stop := do
  match ← beginCheck with
  | some a => return .wait a
  | none => afterCheck call false

/-- The work of a call that holds the single flight. -/
def aboard (call : Call) : Act σ Stop :=
  match call with
  | .connect => do
    setConnected false
    return if (← get).hasWallet then .wait .connectedWallet else .finish (.flag false)
  | .handshake | .handshakeOutcome => startHandshake call
  | _ => startCheck call

/-- Logging out is best effort: a store that cannot be cleared does not stop it. -/
def beginDisconnect : Act σ Stop := do
  tryCatch reset fun _ => pure ()
  return .wait (if (← get).hasWallet then .walletLogout else .revoke)

/-- Nothing is shown for a session that is not connected. -/
def beginBalance : Act σ Stop := do
  let s ← get
  match s.state.token.account with
  | some account =>
    return if s.state.connected && s.hasWallet then
      .wait (.balance (.balanceOf s.chain.contractAddress account))
    else .finish (.balance (.zero false))
  | none => return .finish (.balance (.zero false))

/-- Nothing is paid in without a wallet and a connected session. -/
def beginTopUp (amount : Nat) : Act σ Stop := do
  let s ← get
  return if s.hasWallet && s.state.connected then .wait (.network amount) else .finish .done

def begin (call : Call) : Act σ Move :=
  match call with
  | .init | .observe => do
    return .stop (if (← get).hasWallet then .wait .startupWallet else .finish (.flag false))
  | .check | .connect | .handshake | .handshakeOutcome => return .board
  | .disconnect => return .stop (← beginDisconnect)
  | .balance => return .stop (← beginBalance)
  | .topUp amount => return .stop (← beginTopUp amount)

/-- A deposit of base units. -/
def depositPayload (chain : ChainConfig) (amount : Nat) : EntryFunctionPayload :=
  { function := chain.contractAddress ++ "::vibe_balance::deposit", arguments := [amount.repr] }

def onNetwork (amount : Nat) (answer : Except AuthError Network) : Act σ Stop := do
  let network ← receive answer
  let chain := (← get).chain
  if chain.isMatchedBy network then return .wait (.deposit (depositPayload chain amount))
  else throw (.wrongNetwork chain.rpcUrl chain.chainId)

def onDeposit (answer : Except AuthError SubmitResponse) : Act σ Stop := do
  let response ← receive answer
  if response.success then return .finish .done else throw .topUpFailed

/-- A wallet that cannot tell at startup counts as not connected. -/
def onStartupWallet (answer : Except AuthError Bool) : Move :=
  match answer with
  | .ok true => .board
  | _ => .stop (.finish (.flag false))

def onConnectedWallet (call : Call) (answer : Except AuthError Bool) : Act σ Stop := do
  if ← receive answer then startCheck call else return .wait .walletPrompt

def onWalletPrompt (call : Call) (answer : Except AuthError Unit) : Act σ Stop := do
  receive answer
  startCheck call

/-- How a call goes on when it is answered. -/
def resume (call : Call) : (a : Await) → Except AuthError a.Reply → Act σ Move
  | .startupWallet, answer => return onStartupWallet answer
  | .connectedWallet, answer => return .stop (← onConnectedWallet call answer)
  | .walletPrompt, answer => return .stop (← onWalletPrompt call answer)
  | .status current, answer => do
    let valid ← endCheck current answer
    return .stop (← afterCheck call valid)
  | .account, answer => return .stop (.wait (← onAccount answer))
  | .issue draft, answer => return .stop (.wait (← onIssued draft answer))
  | .signature _, answer => do
    match ← onSigned answer with
    | some a => return .stop (.wait a)
    | none => return .stop (← endHandshake call .userDeclined)
  | .publicKey signed, answer => return .stop (.wait (← onPublicKey signed answer))
  | .verify _, answer => do
    onVerified answer
    return .stop (← endHandshake call .verified)
  | .walletLogout, _ => return .stop (.wait .revoke)
  | .revoke, _ => return .stop (.finish (.flag true))
  | .balance _, answer => do
    let v ← receive answer
    return .stop (.finish (.balance (Balance.ofAnswer v)))
  | .network amount, answer => return .stop (← onNetwork amount answer)
  | .deposit _, answer => return .stop (← onDeposit answer)

end Session

end WalletSession
