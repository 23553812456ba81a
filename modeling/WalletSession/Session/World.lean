import WalletSession.Session.Lock
import WalletSession.Session.Stretch

/-! A session in use: the calls under way, each waiting at its place, the single flight that checks,
connects and handshakes share, startup, the snapshot that was last published, and the whole
history. -/
namespace WalletSession

/-- Where a call waits. -/
inductive Place
  /-- For startup to be over, or for a turn at running it. -/
  | startupTurn
  /-- For the single flight. `seen` flights had ended when the call arrived. -/
  | flightTurn (seen : Nat)
  | asking (a : Await)
  deriving Repr

structure Task where
  id : Nat
  call : Call
  /-- The call came through the binding, which publishes the snapshot at its end. -/
  publishes : Bool
  place : Place
  deriving Repr

/-- The single flight of checks, connects and handshakes. -/
structure Flight where
  lock : Lock := {}
  /-- How many flights have ended. -/
  completed : Nat := 0
  /-- The last flight was a connect or a handshake and ended connected. -/
  shareable : Bool := false
  deriving DecidableEq, Repr, Inhabited

/-- Startup runs once. -/
structure Startup where
  lock : Lock := {}
  isOver : Bool := false
  deriving DecidableEq, Repr, Inhabited

/-- What happened, by the number of the call that it happened to. -/
inductive Note
  | started (id : Nat) (call : Call)
  | did (id : Nat) (deed : Deed)
  | asked (id : Nat) (request : Request)
  | answered (id : Nat) (method : Method) (reply : Except AuthError method.Reply)
  /-- The call begins a flight of its own. -/
  | boarded (id : Nat)
  /-- The flight of the call ends, and leaves the session connected or not. -/
  | landed (id : Nat) (connected : Bool)
  | returned (id : Nat) (result : Except AuthError Value)
  | dropped (id : Nat)

structure World (σ : Type) where
  session : Session σ
  flight : Flight := {}
  startup : Startup := {}
  published : Snapshot
  /-- How often the published snapshot has changed. -/
  version : Nat := 0
  /-- In the order in which they started. -/
  tasks : List Task := []
  nextId : Nat := 0
  /-- Oldest first. -/
  log : List Note := []

namespace World

variable {σ : Type}

/-- A session with its first snapshot published. -/
def ofSession (session : Session σ) : World σ :=
  { session, published := session.state.snapshot }

def snapshot (w : World σ) : Snapshot := w.session.state.snapshot

def task? (w : World σ) (id : Nat) : Option Task := w.tasks.find? (·.id == id)

def note (w : World σ) (n : Note) : World σ := { w with log := w.log ++ [n] }

/-- Puts a call to its place, which is the last among the calls for a new one. -/
def place (w : World σ) (t : Task) (place : Place) : World σ :=
  if w.tasks.any (·.id == t.id) then
    { w with tasks := w.tasks.map fun u => if u.id == t.id then { u with place } else u }
  else { w with tasks := w.tasks ++ [{ t with place }] }

def remove (w : World σ) (id : Nat) : World σ :=
  { w with tasks := w.tasks.filter (·.id != id) }

def publish (w : World σ) : World σ :=
  if w.published = w.snapshot then w
  else { w with published := w.snapshot, version := w.version + 1 }

/-- Runs a stretch of work for a call. -/
def run {α : Type} (w : World σ) (id : Nat) (work : Act σ α) : Except AuthError α × World σ :=
  let after (s : Session σ) : World σ :=
    { w with session := { s with deeds := [] }, log := w.log ++ s.deeds.map (.did id) }
  match work w.session with
  | .ok a s => (.ok a, after s)
  | .error e s => (.error e, after s)

def setFlightLock (w : World σ) (lock : Lock) : World σ :=
  { w with flight := { w.flight with lock } }

def setStartupLock (w : World σ) (lock : Lock) : World σ :=
  { w with startup := { w.startup with lock } }

/-- Ends the flight of a call, and says whether those who wait may take over its result. -/
def land (w : World σ) (t : Task) : World σ :=
  { w with
    flight :=
      { lock := w.flight.lock.release
        completed := w.flight.completed + 1
        shareable := t.call.isShareable && w.session.state.connected } }
    |>.note (.landed t.id w.session.state.connected)

/-- Ends the flight of a call that has one. -/
def landIfAboard (w : World σ) (t : Task) : World σ :=
  if w.flight.lock.holder = some t.id then w.land t else w

/-- Startup that did not succeed leaves the session disconnected. -/
def endInit (w : World σ) (connected : Bool) : World σ :=
  { w with
    session :=
      { w.session with state := { w.session.state with connected, initialized := true } } }

def endStartup (w : World σ) : World σ := { w with startup := { lock := {}, isOver := true } }

def startupSucceeded : Except AuthError Value → Bool
  | .ok (.flag b) => b
  | _ => false

/-- The call has its result: it leaves the flight, and then does what is left to do. -/
def conclude (w : World σ) (t : Task) (result : Except AuthError Value) : World σ :=
  let w := (w.landIfAboard t).remove t.id
  match t.call with
  | .init =>
    let connected := startupSucceeded result
    let w := w.endInit connected
    (if t.publishes then w.publish else w).note (.returned t.id (.ok (.flag connected)))
  | .observe =>
    let w := (w.endInit (startupSucceeded result)).publish.endStartup
    w.note (.returned t.id (.ok (.snapshot w.snapshot)))
  | _ => (if t.publishes then w.publish else w).note (.returned t.id result)

def settle (w : World σ) (t : Task) (result : Except AuthError Stop) : World σ :=
  match result with
  | .ok (.wait a) => (w.place t (.asking a)).note (.asked t.id a.request)
  | .ok (.finish v) => w.conclude t (.ok v)
  | .error e => w.conclude t (.error e)

/-- Startup is over, and whoever waited for it sees the snapshot of this moment. -/
def endObserve (w : World σ) (t : Task) : World σ :=
  (w.remove t.id).note (.returned t.id (.ok (.snapshot w.snapshot)))

end World

end WalletSession
