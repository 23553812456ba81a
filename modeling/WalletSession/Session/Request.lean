import WalletSession.AuthError
import WalletSession.Backend.Submission
import WalletSession.Chain
import WalletSession.Token
import WalletSession.Wallet.Deposit
import WalletSession.Wallet.Network

/-! What a session asks of the wallet, the backend and the chain, and what each may answer. -/
namespace WalletSession

inductive Method
  | isConnected
  | connect
  | disconnect
  | account
  | network
  | publicKey
  | signMessage
  | signAndSubmit
  | status
  | issue
  | verify
  | revoke
  | view
  deriving DecidableEq, Repr

/-- What an answer holds if nothing fails. -/
abbrev Method.Reply : Method → Type
  | .isConnected | .revoke => Bool
  | .connect | .disconnect => Unit
  | .account | .publicKey => String
  | .network => Network
  | .signMessage => SignMessageResponse
  | .signAndSubmit => SubmitResponse
  | .status | .issue | .verify => SessionToken
  | .view => Json

inductive Request
  | isConnected
  | connect
  | disconnect
  | account
  | network
  | publicKey
  | signMessage (payload : SignMessagePayload) (options : SignOptions)
  | signAndSubmit (payload : EntryFunctionPayload)
  | status (token : SessionToken)
  | issue (draft : SessionToken)
  | verify (submission : SignatureSubmission)
  | revoke
  | view (request : ViewRequest)
  deriving Repr

namespace Request

def method : Request → Method
  | .isConnected => .isConnected
  | .connect => .connect
  | .disconnect => .disconnect
  | .account => .account
  | .network => .network
  | .publicKey => .publicKey
  | .signMessage .. => .signMessage
  | .signAndSubmit _ => .signAndSubmit
  | .status _ => .status
  | .issue _ => .issue
  | .verify _ => .verify
  | .revoke => .revoke
  | .view _ => .view

/-- The texts that are sent along. -/
def arguments : Request → List String
  | .signMessage payload options => [Wire.encode payload, Wire.encode options]
  | .signAndSubmit payload => [Wire.encode payload]
  | .status token | .issue token => [Wire.encode token]
  | .verify submission => [Wire.encode submission]
  | .view request => [Wire.encode request]
  | _ => []

end Request

end WalletSession
