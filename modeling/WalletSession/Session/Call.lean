import WalletSession.Session.Outcome
import WalletSession.Session.Request
import WalletSession.Session.State

/-! Calls on a session, the places where they wait, and what they return. -/
namespace WalletSession

inductive Call
  /-- Looks at the stored record once and never fails. -/
  | init
  | check
  | connect
  | handshake
  | handshakeOutcome
  | disconnect
  | balance
  | topUp (amount : Nat)
  /-- The snapshot after startup; the first to ask runs `init`. -/
  | observe
  deriving DecidableEq, Repr

namespace Call

/-- Others may take over the result of a flight of this call. -/
def isShareable : Call → Bool
  | .connect | .handshake | .handshakeOutcome => true
  | _ => false

end Call

/-- What a call is waiting for, with the values that it needs afterwards. -/
inductive Await
  /-- At startup: is the wallet connected? -/
  | startupWallet
  /-- Connecting: is the wallet connected? -/
  | connectedWallet
  /-- Connecting: the wallet asks its user. -/
  | walletPrompt
  | status (current : SessionToken)
  | account
  | issue (draft : SessionToken)
  | signature (payload : SignMessagePayload)
  | publicKey (signed : SignedMessage)
  | verify (submission : SignatureSubmission)
  | walletLogout
  | revoke
  | balance (request : ViewRequest)
  | network (amount : Nat)
  | deposit (payload : EntryFunctionPayload)
  deriving Repr

namespace Await

/-- What was asked. -/
def request : Await → Request
  | .startupWallet | .connectedWallet => .isConnected
  | .walletPrompt => .connect
  | .status current => .status current
  | .account => .account
  | .issue draft => .issue draft
  | .signature payload => .signMessage payload {}
  | .publicKey _ => .publicKey
  | .verify submission => .verify submission
  | .walletLogout => .disconnect
  | .revoke => .revoke
  | .balance request => .view request
  | .network _ => .network
  | .deposit payload => .signAndSubmit payload

abbrev method (a : Await) : Method := a.request.method

abbrev Reply (a : Await) : Type := a.method.Reply

end Await

/-- What a call returns if it does not fail. -/
inductive Value
  | flag (b : Bool)
  | outcome (o : HandshakeOutcome)
  | balance (x : Binary64)
  | done
  | snapshot (s : Snapshot)
  deriving DecidableEq, Repr

/-- Where a stretch of work ends. -/
inductive Stop
  | wait (a : Await)
  | finish (v : Value)
  deriving Repr

/-- Where a stretch of work ends that may lead to the single flight. -/
inductive Move
  | board
  | stop (s : Stop)
  deriving Repr

end WalletSession
