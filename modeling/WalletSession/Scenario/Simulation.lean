import WalletSession.Scenario.Partners
import WalletSession.Session.Step

/-! A deterministic run of sessions. Sessions that follow one another share their store and their
partners, and calls on an older one go on. After each move of the simulation all calls that can go
on do so, in passes over the calls in the order in which they started. -/
namespace WalletSession.Scenario

/-- A call that has not returned, on the session of that place in the row. -/
structure Pending where
  name : String
  session : Nat
  id : Nat
  deriving DecidableEq, Repr

/-- An answer on its way to a call. -/
structure Delivery where
  session : Nat
  id : Nat
  method : Method
  reply : Except AuthError method.Reply
  isHeld : Bool

/-- Somebody who listens to the published snapshots of a session and has seen some of them. -/
structure Receiver where
  session : Nat
  seen : Nat
  deriving DecidableEq, Repr

/-- Whether a receiver finds something new; nothing if nobody can publish any more. -/
inductive News
  | closed
  | changed (b : Bool)
  deriving DecidableEq, Repr

structure Simulation (κ σ : Type) where
  chain : ChainConfig
  hasWallet : Bool
  partners : κ
  store : σ
  /-- The sessions in the order in which they were opened; the last one is current. -/
  worlds : List (World σ) := []
  pending : List Pending := []
  /-- Answers that have not arrived, in the order in which they were given. -/
  deliveries : List Delivery := []
  receivers : List Receiver := []
  /-- What partners noticed, and the calls that returned. -/
  log : List Entry := []
  returned : List (String × Except AuthError Value) := []

namespace Simulation

variable {κ σ : Type} [Partners κ] [TokenStore σ]

/-- The place of the current session in the row. -/
def current (s : Simulation κ σ) : Nat := s.worlds.length - 1

def currentWorld? (s : Simulation κ σ) : Option (World σ) := s.worlds[s.current]?

/-- Opens a session over the store; it takes the place of the current one. -/
def openSession (s : Simulation κ σ) : Simulation κ σ :=
  let session := Session.create s.chain s.hasWallet s.store
  { s with
    store := session.store
    worlds := s.worlds ++ [.ofSession session]
    partners := if s.worlds.isEmpty then s.partners else Partners.renew s.partners
    log := s.log ++ [.loaded] }

/-- Takes note of what a session has done. A request is answered at once. -/
def observe (s : Simulation κ σ) (session : Nat) : Note → Simulation κ σ
  | .did _ deed => { s with log := s.log ++ [.stored deed] }
  | .asked id q =>
    let (response, partners, entries) := Partners.ask s.partners q
    let delivery : Delivery :=
      { session, id, method := q.method, reply := response.reply, isHeld := response.isHeld }
    { s with partners, log := s.log ++ entries, deliveries := s.deliveries ++ [delivery] }
  | .returned id result =>
    let isIt (p : Pending) : Bool := p.session == session && p.id == id
    { s with
      pending := s.pending.filter (!isIt ·)
      returned := s.returned ++
        ((s.pending.find? isIt).map fun p => (p.name, result)).toList }
  | _ => s

/-- One action of a session, which borrows the store for it. -/
def act (s : Simulation κ σ) (session : Nat) (action : Action) : Simulation κ σ :=
  match s.worlds[session]? with
  | none => s
  | some w =>
    let w := { w with session := { w.session with store := s.store }, log := [] }
    let w := w.step action
    let s :=
      { s with worlds := s.worlds.set session { w with log := [] }, store := w.session.store }
    w.log.foldl (fun s n => s.observe session n) s

def isFor (p : Pending) (d : Delivery) : Bool := d.session == p.session && d.id == p.id

/-- The answer to a call, if it may arrive. -/
def arriving? (s : Simulation κ σ) (p : Pending) : Option Delivery :=
  s.deliveries.find? fun d => isFor p d && !d.isHeld

def isAwake (s : Simulation κ σ) (p : Pending) : Bool :=
  match s.worlds[p.session]? with
  | none => false
  | some w =>
    match w.task? p.id with
    | none => false
    | some t => w.isAwake t

def canGoOn (s : Simulation κ σ) (p : Pending) : Bool :=
  s.pending.contains p && ((s.arriving? p).isSome || s.isAwake p)

def deliver (s : Simulation κ σ) (p : Pending) (d : Delivery) : Simulation κ σ :=
  let s :=
    { s with
      deliveries := s.deliveries.filter (!isFor p ·)
      partners := Partners.handedOver s.partners d.method d.reply }
  s.act p.session (.answer p.id d.method d.reply)

/-- No call pauses more often than this. -/
def pauseBound : Nat := 16

/-- Lets a call go on until it has to wait. -/
def goOn : Nat → Simulation κ σ → Pending → Simulation κ σ
  | 0, s, _ => s
  | n + 1, s, p =>
    if !s.canGoOn p then s
    else
      match s.arriving? p with
      | some d => goOn n (s.deliver p d) p
      | none => goOn n (s.act p.session (.wake p.id)) p

/-- Lets the calls go on that can, in the order in which they started. -/
def pass (s : Simulation κ σ) : Simulation κ σ :=
  s.pending.foldl (fun s p => goOn pauseBound s p) s

def passes : Nat → Simulation κ σ → Simulation κ σ
  | 0, s => s
  | n + 1, s => if s.pending.any s.canGoOn then passes n s.pass else s

/-- Passes until no call can go on. -/
def rest (s : Simulation κ σ) : Simulation κ σ :=
  passes (pauseBound * (s.pending.length + 1)) s

/-- Starts a call on the current session. -/
def call (s : Simulation κ σ) (name : String) (c : Call) (publishes : Bool) : Simulation κ σ :=
  match s.currentWorld? with
  | none => s
  | some w =>
    let p : Pending := { name, session := s.current, id := w.nextId }
    ({ s with pending := s.pending ++ [p] }.act s.current (.start c publishes)).rest

def letArrive (m : Method) : List Delivery → List Delivery × Bool
  | [] => ([], false)
  | d :: rest =>
    if d.method = m ∧ d.isHeld = true then ({ d with isHeld := false } :: rest, true)
    else
      let (rest, found) := letArrive m rest
      (d :: rest, found)

/-- Lets the oldest held answers of some methods arrive, one for each mention, and tells which
there were. -/
def release (s : Simulation κ σ) : List Method → Simulation κ σ × List Bool
  | [] => (s, [])
  | m :: rest =>
    let (deliveries, found) := letArrive m s.deliveries
    let (s, others) := release { s with deliveries } rest
    (s, found :: others)

/-- Drops a call where it waits, and tells whether there was one of that name. -/
def cancel (s : Simulation κ σ) (name : String) : Simulation κ σ × Bool :=
  match s.pending.find? (·.name == name) with
  | none => (s, false)
  | some p =>
    let s :=
      { s with
        pending := s.pending.filter (· != p)
        deliveries := s.deliveries.filter (!isFor p ·) }
    ((s.act p.session (.drop p.id)).rest, true)

/-- Listens to the current session, from what it has published last. -/
def subscribe (s : Simulation κ σ) : Simulation κ σ :=
  let seen := (s.currentWorld?.map World.version).getD 0
  { s with receivers := s.receivers ++ [{ session := s.current, seen }] }

/-- A session is open while it is the current one or a call on it has not returned. -/
def isOpen (s : Simulation κ σ) (session : Nat) : Bool :=
  session == s.current || s.pending.any (·.session == session)

/-- What a receiver finds; it has then seen all. -/
def receive (s : Simulation κ σ) (n : Nat) : Simulation κ σ × Option (News × Snapshot) :=
  match s.receivers[n]? with
  | none => (s, none)
  | some r =>
    match s.worlds[r.session]? with
    | none => (s, none)
    | some w =>
      let news : News := if s.isOpen r.session then .changed (w.version != r.seen) else .closed
      ({ s with receivers := s.receivers.set n { r with seen := w.version } },
        some (news, w.published))

/-- Startup of the current session is over. -/
def isReady (s : Simulation κ σ) : Bool :=
  match s.currentWorld? with
  | some w => w.startup.isOver
  | none => false

/-- Puts something else into the store, unnoticed. -/
def seed (s : Simulation κ σ) (change : σ → σ) : Simulation κ σ :=
  { s with store := change s.store }

/-- Forgets what was noticed. -/
def clearLog (s : Simulation κ σ) : Simulation κ σ := { s with log := [], returned := [] }

end Simulation

end WalletSession.Scenario
