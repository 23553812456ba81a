import WalletSession.Config
import WalletSession.Machine.Transition
import WalletSession.Store.Basic

/-! What a session knows, and the operations that its calls are made of. An operation runs without
a pause; it may fail, and what it did before it failed stays done. -/
namespace WalletSession

structure SessionState where
  connected : Bool := false
  /-- The stored record was looked at once; before that, not being connected means little. -/
  initialized : Bool := false
  phase : Phase := .unauthenticated
  token : SessionToken := {}
  deriving DecidableEq, Repr, Inhabited

/-- What a session shows to those who use it. -/
structure Snapshot where
  initialized : Bool := false
  connected : Bool := false
  phase : Phase := .unauthenticated
  account : Option String := none
  deriving DecidableEq, Repr, Inhabited

def SessionState.snapshot (s : SessionState) : Snapshot :=
  { initialized := s.initialized, connected := s.connected, phase := s.phase,
    account := s.token.account }

/-- What the store was asked to do, and whether it did. -/
inductive Deed
  | saved (token : SessionToken) (succeeded : Bool)
  | cleared (succeeded : Bool)
  deriving DecidableEq, Repr

/-- A session over a store. Whether there is a wallet never changes. -/
structure Session (σ : Type) where
  chain : ChainConfig
  hasWallet : Bool
  store : σ
  state : SessionState := {}
  /-- What the store was asked to do in the operation under way, oldest first. -/
  deeds : List Deed := []

abbrev Act (σ : Type) : Type → Type := EStateM AuthError (Session σ)

namespace Session

variable {σ : Type}

/-- A new session starts disconnected, with the record that the store holds. -/
def create [TokenStore σ] (chain : ChainConfig) (hasWallet : Bool) (store : σ) : Session σ :=
  let (token, store) := TokenStore.load store
  { chain, hasWallet, store, state := { token } }

/-- The answer of somebody who was asked. -/
def receive {α : Type} : Except AuthError α → Act σ α
  | .ok a => pure a
  | .error e => throw e

def setConnected (connected : Bool) : Act σ Unit :=
  modify fun s => { s with state := { s.state with connected } }

def setToken (token : SessionToken) : Act σ Unit :=
  modify fun s => { s with state := { s.state with token } }

def setPhase (phase : Phase) : Act σ Unit :=
  modify fun s => { s with state := { s.state with phase } }

/-- Takes the edge of an event and tells what is to be done then. -/
def advance (event : Event) : Act σ Effect := do
  let s ← get
  let step ← receive (transition s.state.phase event)
  setPhase step.phase
  return step.effect

/-- Takes an edge whose work the caller goes on to do; it can only be the work of that event. -/
def follow (event : Event) (work : Effect) (_fits : event.effect = work := by rfl) :
    Act σ Unit := do
  let _ ← advance event

/-- Leaves a pending phase. -/
def giveUp : Act σ Unit := follow .failed .nothing

variable [TokenStore σ]

def saveRecord (token : SessionToken) : Act σ Unit := do
  let s ← get
  let (answer, store) := TokenStore.save s.store token
  set { s with store, deeds := s.deeds ++ [Deed.saved token answer.isOk] }
  receive answer

def clearRecord : Act σ Unit := do
  let s ← get
  let (answer, store) := TokenStore.clear s.store
  set { s with store, deeds := s.deeds ++ [Deed.cleared answer.isOk] }
  receive answer

/-- Forgets the session if that is the work to be done. Memory is cleared before the store. -/
def apply : Effect → Act σ Unit
  | .clearSession => do
    setToken {}
    setConnected false
    clearRecord
  | _ => pure ()

def reset : Act σ Unit := do
  let effect ← advance .reset
  apply effect

/-- Makes a record the stored and then the current one. -/
def commit (token : SessionToken) : Act σ Unit := do
  saveRecord token
  setToken token

end Session

end WalletSession
