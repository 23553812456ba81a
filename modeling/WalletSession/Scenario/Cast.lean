import WalletSession.Session.Request
import WalletSession.Config

/-! Scripted partners of a session. Each method has a queue of cues. A request takes the next cue,
which may bring an error or a text as the answer and may hold the answer back; without a cue, or
with one that says nothing, the partners answer well. -/
namespace WalletSession.Scenario

/-- How one request is to be answered. -/
structure Cue where
  error : Option AuthError := none
  /-- The JSON text of the answer. -/
  text : Option String := none
  isHeld : Bool := false
  deriving Inhabited

structure Cast where
  chain : ChainConfig
  cues : Method → List Cue
  /-- How many challenges were asked for. -/
  issued : Nat := 0
  /-- The challenge that was last handed over. -/
  lastIssued : Option SessionToken := none

/-- The answer to a request, and whether it is held back. -/
structure Response (m : Method) where
  reply : Except AuthError m.Reply
  isHeld : Bool := false

/-- The answer that a text holds. -/
def readReply : (m : Method) → String → Option m.Reply
  | .isConnected, s | .revoke, s => (Wire.decode? s : Option Bool)
  | .connect, s | .disconnect, s => (Wire.decode? s : Option Unit)
  | .account, s | .publicKey, s => (Wire.decode? s : Option String)
  | .network, s => (Wire.decode? s : Option Network)
  | .signMessage, s => (Wire.decode? s : Option SignMessageResponse)
  | .signAndSubmit, s => (Wire.decode? s : Option SubmitResponse)
  | .status, s | .issue, s | .verify, s => (Wire.decode? s : Option SessionToken)
  | .view, s => (Wire.decode? s : Option Json)

namespace Cast

def defaultAccount : String := "0xa11ce"

/-- Signs with the bytes of the nonce. -/
def sign (p : SignMessagePayload) : SignMessageResponse :=
  { success := true
    result := some
      { message := p.message, nonce := p.nonce, signature := p.nonce.toUTF8.toList,
        address := some defaultAccount } }

/-- Challenges are numbered in the order in which they were asked for. -/
def challenge (number : Nat) (draft : SessionToken) : SessionToken :=
  { token := some ("tok-" ++ number.repr), account := draft.account,
    nonce := some ("nonce-" ++ number.repr), createdAt := some (.ofNat 1700000000) }

/-- A good answer. -/
def goodReply (c : Cast) : (q : Request) → Except AuthError q.method.Reply
  | .isConnected => .ok true
  | .connect => .ok ()
  | .disconnect => .ok ()
  | .account => .ok defaultAccount
  | .network => .ok { api := c.chain.rpcUrl, chainId := c.chain.chainId }
  | .publicKey => .ok "0xpub"
  | .signMessage payload _ => .ok (sign payload)
  | .signAndSubmit _ => .ok { success := true }
  | .status token => .ok { token with verified := true }
  | .issue draft => .ok (challenge c.issued draft)
  | .verify _ =>
    match c.lastIssued with
    | some token => .ok { token with verified := true }
    | none => .error (.backend 500 "Settings not found")
  | .revoke => .ok true
  | .view _ => .ok (.array [.string "123450000"])

def cuedReply (c : Cast) (cue : Cue) (q : Request) : Except AuthError q.method.Reply :=
  match cue.error, cue.text with
  | some e, _ => .error e
  | none, some text =>
    match readReply q.method text with
    | some reply => .ok reply
    | none => .error (.parse "unexpected answer")
  | none, none => c.goodReply q

/-- Takes the next cue of a method. -/
def takeCue (c : Cast) (m : Method) : Cue × Cast :=
  ((c.cues m).headD {},
    { c with cues := fun other => if other = m then (c.cues m).tail else c.cues other })

/-- Answers a request. -/
def ask (c : Cast) (q : Request) : Response q.method × Cast :=
  let (cue, c) := c.takeCue q.method
  let c := if q.method = .issue then { c with issued := c.issued + 1 } else c
  ({ reply := c.cuedReply cue q, isHeld := cue.isHeld }, c)

/-- An answer was handed over. -/
def handedOver (c : Cast) : (m : Method) → Except AuthError m.Reply → Cast
  | .issue, .ok token => { c with lastIssued := some token }
  | _, _ => c

end Cast

end WalletSession.Scenario
