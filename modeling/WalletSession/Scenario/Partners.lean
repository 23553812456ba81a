import WalletSession.Backend.Remote
import WalletSession.Scenario.Cast
import WalletSession.Session.State

/-! Those whom a simulated session asks: either all of them follow a script, or the wallet does and
the backend and the chain are asked over HTTP. -/
namespace WalletSession.Scenario

/-- What partners noticed. -/
inductive Entry
  | loaded
  | stored (deed : Deed)
  | asked (request : Request)
  | exchanged (request : Http.Request)

/-- Somebody who answers requests, at once or held back. -/
class Partners (κ : Type) where
  ask : κ → (q : Request) → Response q.method × κ × List Entry
  /-- An answer was handed over. -/
  handedOver : κ → (m : Method) → Except AuthError m.Reply → κ
  /-- A new session takes the place of the old one. -/
  renew : κ → κ

def Cast.askAndTell (c : Cast) (q : Request) : Response q.method × Cast × List Entry :=
  let (response, c) := c.ask q
  (response, c, [.asked q])

instance : Partners Cast := ⟨Cast.askAndTell, Cast.handedOver, id⟩

/-- A scripted wallet with a backend and a chain over HTTP. -/
structure HttpPartners where
  wallet : Cast
  remote : Backend.Remote

namespace HttpPartners

def ask (p : HttpPartners) (q : Request) : Response q.method × HttpPartners × List Entry :=
  match p.remote.route? q with
  | none =>
    let (response, wallet) := p.wallet.ask q
    (response, { p with wallet }, [.asked q])
  | some route =>
    let (reply, remote, sent) := p.remote.ask route
    ({ reply }, { p with remote }, (sent.map Entry.exchanged).toList)

instance : Partners HttpPartners :=
  ⟨ask, fun p _ _ => p, fun p => { p with remote := p.remote.renew }⟩

end HttpPartners

end WalletSession.Scenario
