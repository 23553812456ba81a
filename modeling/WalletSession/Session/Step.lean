import WalletSession.Session.World

/-! The moves of a session in use. An action starts a call, answers one, lets one go on that has got
its turn, or drops one; what a call does between two pauses is one move. An action that does not
apply changes nothing, and an interleaving is a list of actions. -/
namespace WalletSession

inductive Action
  | start (call : Call) (publishes : Bool)
  | answer (id : Nat) (method : Method) (reply : Except AuthError method.Reply)
  | wake (id : Nat)
  | drop (id : Nat)

namespace World

variable {σ : Type} [TokenStore σ]

/-- Runs the flight of a call that holds the lock. -/
def embark (w : World σ) (t : Task) : World σ :=
  let (result, w) := (w.note (.boarded t.id)).run t.id (Session.aboard t.call)
  w.settle t result

/-- Takes the flight if it is free, and a place in its queue otherwise. -/
def board (w : World σ) (t : Task) : World σ :=
  let arrived := w.setFlightLock (w.flight.lock.arrive t.id)
  if w.flight.lock.isFree then arrived.embark t
  else arrived.place t (.flightTurn w.flight.completed)

/-- The result of a flight that ended since `seen` may serve this call. -/
def isServed (w : World σ) (seen : Nat) : Bool :=
  w.flight.completed != seen && w.flight.shareable && w.session.state.connected

/-- The lock was handed to a waiting call. It takes over the result of the flight before, without
a flight of its own, or else begins its own. -/
def takeTurn (w : World σ) (t : Task) (seen : Nat) : World σ :=
  if w.isServed seen then
    (w.setFlightLock w.flight.lock.release).conclude t (.ok t.call.sharedValue)
  else w.embark t

def proceed (w : World σ) (t : Task) (work : Act σ Move) : World σ :=
  match w.run t.id work with
  | (.ok .board, w) => w.board t
  | (.ok (.stop s), w) => w.settle t (.ok s)
  | (.error e, w) => w.settle t (.error e)

/-- Waits for startup, runs it, or finds it over. -/
def observe (w : World σ) (t : Task) : World σ :=
  if w.startup.isOver then w.endObserve t
  else
    let arrived := w.setStartupLock (w.startup.lock.arrive t.id)
    if w.startup.lock.isFree then arrived.proceed t (Session.begin t.call)
    else arrived.place t .startupTurn

def start (w : World σ) (call : Call) (publishes : Bool) : World σ :=
  let t : Task := { id := w.nextId, call, publishes, place := .startupTurn }
  let w := { w with nextId := w.nextId + 1 }.note (.started t.id call)
  match call with
  | .observe => w.observe t
  | _ => w.proceed t (Session.begin call)

def answer (w : World σ) (id : Nat) (method : Method) (reply : Except AuthError method.Reply) :
    World σ :=
  match w.task? id with
  | some t =>
    match t.place with
    | .asking a =>
      if same : method = a.method then
        let received : Except AuthError a.method.Reply := same ▸ reply
        (w.note (.answered id method reply)).proceed t (Session.resume t.call a received)
      else w
    | _ => w
  | none => w

/-- The call has got what it waited for, other than an answer. -/
def isAwake (w : World σ) (t : Task) : Bool :=
  match t.place with
  | .startupTurn => w.startup.isOver || w.startup.lock.holder == some t.id
  | .flightTurn _ => w.flight.lock.holder == some t.id
  | .asking _ => false

def wake (w : World σ) (id : Nat) : World σ :=
  match w.task? id with
  | some t =>
    if !w.isAwake t then w
    else
      match t.place with
      | .startupTurn =>
        if w.startup.isOver then w.endObserve t else w.proceed t (Session.begin t.call)
      | .flightTurn seen => w.takeTurn t seen
      | .asking _ => w
  | none => w

/-- Forgets a call where it waits. Its turns are handed on, and a flight that it was on ends. -/
def drop (w : World σ) (id : Nat) : World σ :=
  match w.task? id with
  | some t =>
    let w := (w.remove id).note (.dropped id)
    let w :=
      match t.place with
      | .flightTurn _ => w.setFlightLock (w.flight.lock.leave id)
      | _ => w.landIfAboard t
    if t.call = .observe then w.setStartupLock (w.startup.lock.leave id) else w
  | none => w

def step (w : World σ) : Action → World σ
  | .start call publishes => w.start call publishes
  | .answer id method reply => w.answer id method reply
  | .wake id => w.wake id
  | .drop id => w.drop id

/-- An interleaving is a list of actions. -/
def steps (w : World σ) (actions : List Action) : World σ := actions.foldl step w

end World

end WalletSession
