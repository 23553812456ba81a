import WalletSession.Proofs.Session.Turn
import WalletSession.Proofs.World.Line
import WalletSession.Session.Step

/-! What the end of a stretch does to a world. A call goes to a place or is gone, and no other call
moves; whoever goes gives up the flight or a place in its queue. -/
namespace WalletSession

variable {σ : Type}

namespace Session

@[simps] def rested (s : Session σ) : Session σ := { s with deeds := [] }

theorem rested_of_idle {s : Session σ} (idle : s.deeds = []) : s.rested = s := by
  cases s
  cases idle
  rfl

/-- Startup tells the session how it went; no other call does. -/
def concluded (s : Session σ) (call : Call) (result : Except AuthError Value) : Session σ :=
  if call.isStartup then
    { s with state :=
      { s.state with connected := World.startupSucceeded result, initialized := true } }
  else s

def told (s : Session σ) (result : Except AuthError Value) : Call → Except AuthError Value
  | .init => .ok (.flag (World.startupSucceeded result))
  | .observe => .ok (.snapshot s.state.snapshot)
  | _ => result

variable (s : Session σ) (call : Call) (result : Except AuthError Value)

variable {call} in
theorem told_of_other (other : call.isStartup = false) : s.told result call = result := by
  cases call <;> first | rfl | contradiction

variable {call} in
theorem concluded_of_other (other : call.isStartup = false) : s.concluded call result = s := by
  simp [concluded, other]

@[simp] theorem concluded_phase : (s.concluded call result).state.phase = s.state.phase := by
  unfold concluded
  split <;> rfl

@[simp] theorem concluded_token : (s.concluded call result).state.token = s.state.token := by
  unfold concluded
  split <;> rfl

theorem concluded_connected : (s.concluded call result).state.connected =
    if call.isStartup then World.startupSucceeded result else s.state.connected := by
  unfold concluded
  split <;> rfl

variable {s call result} in
theorem connected_of_concluded
    (succeeds : call.isStartup = true → World.startupSucceeded result = true →
      s.state.connected = true)
    (connected : (s.concluded call result).state.connected = true) : s.state.connected = true := by
  rw [concluded_connected] at connected
  split at connected
  next startup => exact succeeds startup connected
  next => exact connected

@[simp] theorem concluded_store : (s.concluded call result).store = s.store := by
  unfold concluded
  split <;> rfl

@[simp] theorem concluded_deeds : (s.concluded call result).deeds = s.deeds := by
  unfold concluded
  split <;> rfl

@[simp] theorem concluded_hasWallet : (s.concluded call result).hasWallet = s.hasWallet := by
  unfold concluded
  split <;> rfl

@[simp] theorem concluded_chain : (s.concluded call result).chain = s.chain := by
  unfold concluded
  split <;> rfl

end Session

/-- The call whose flight ended, and whether it left the session connected. -/
def Note.landed? : Note → Option (Nat × Bool)
  | .landed id connected => some (id, connected)
  | _ => none

/-- How the flights of a history ended, oldest first. -/
def landings (notes : List Note) : List (Nat × Bool) := notes.filterMap Note.landed?

section Landings

@[simp] theorem landings_nil : landings [] = [] := rfl

@[simp] theorem landings_append (first second : List Note) :
    landings (first ++ second) = landings first ++ landings second := List.filterMap_append

@[simp] theorem landings_cons (n : Note) (notes : List Note) :
    landings (n :: notes) = n.landed?.toList ++ landings notes := by
  unfold landings
  rw [List.filterMap_cons]
  cases n.landed? <;> rfl

@[simp] theorem landings_dids (id : Nat) (deeds : List Deed) :
    landings (deeds.map (.did id)) = [] := by
  induction deeds with
  | nil => rfl
  | cons deed deeds ih => simp [ih, Note.landed?]

end Landings

/-- What the flights of a call add to the tally of those that have ended. -/
def Flight.after (f : Flight) (call : Call) (notes : List Note) : Flight :=
  (landings notes).foldl (fun f ended =>
    { f with completed := f.completed + 1, shareable := call.isShareable && ended.2 }) f

theorem Flight.after_quiet (f : Flight) (call : Call) {notes : List Note}
    (quiet : landings notes = []) : f.after call notes = f := by
  rw [Flight.after, quiet, List.foldl_nil]

theorem Flight.after_append (f : Flight) (call : Call) (notes : List Note) {more : List Note}
    (quiet : landings more = []) : f.after call (notes ++ more) = f.after call notes := by
  rw [Flight.after, landings_append, quiet, List.append_nil, Flight.after]

namespace World

/-- The call is under way, and there it waits. -/
def Has (w : World σ) (t : Task) : Prop := w.task? t.id = some t

theorem has_of_task? {w : World σ} {id : Nat} {t : Task} (found : w.task? id = some t) :
    t.id = id ∧ w.Has t := by
  have same : t.id = id := by simpa using List.find?_some found
  subst same
  exact ⟨rfl, found⟩

theorem Has.unique {w : World σ} {t u : Task} (ht : w.Has t) (hu : w.Has u) (same : t.id = u.id) :
    t = u := by
  rw [Has, same, hu] at ht
  exact (Option.some.inj ht).symm

/-- The call is under way, or its number is free. -/
def Knows (w : World σ) (t : Task) : Prop := w.Has t ∨ w.task? t.id = none

theorem task?_place {w : World σ} {t : Task} (knows : w.Knows t) (place : Place) (id : Nat) :
    (w.place t place).task? id = if id = t.id then some { t with place } else w.task? id := by
  unfold World.place
  split
  next known =>
    have has : w.Has t := by
      refine knows.resolve_right fun none => ?_
      simp only [task?, List.find?_eq_none] at none
      obtain ⟨u, member, same⟩ := List.any_eq_true.mp known
      exact none u member same
    have numbers : ((fun u : Task => u.id == id) ∘
        fun u => if u.id == t.id then { u with place } else u) = (·.id == id) := by
      funext u
      simp only [Function.comp_apply]
      split <;> rfl
    simp only [task?, List.find?_map, numbers]
    split
    next same =>
      subst same
      rw [show w.tasks.find? (·.id == t.id) = some t from has]
      simp
    next other =>
      cases found : w.tasks.find? (·.id == id) with
      | none => rfl
      | some u =>
        have same : u.id = id := by simpa using List.find?_some found
        simp [same, other]
  next unknown =>
    have none : w.tasks.find? (·.id == t.id) = none := by simpa using unknown
    simp only [task?, List.find?_append, List.find?_singleton]
    by_cases same : id = t.id
    · subst same
      simp [none]
    · simp [same, Ne.symm same]

theorem task?_remove (w : World σ) (n id : Nat) :
    (w.remove n).task? id = if id = n then none else w.task? id := by
  simp only [task?, remove, List.find?_filter]
  split
  next same => simp [same]
  next other =>
    congr
    funext u
    grind

def after (w : World σ) (id : Nat) (s : Session σ) : World σ :=
  { w with session := s.rested, log := w.log ++ s.deeds.map (.did id) }

theorem run_eq {α : Type} (w : World σ) (id : Nat) (work : Act σ α) :
    w.run id work = ((w.session.perform work).1, w.after id (w.session.perform work).2) := by
  unfold run Session.perform
  cases work w.session <;> rfl

/-- What a move of a call did before the call goes. -/
structure Opened (w : World σ) (t : Task) (lock : Lock) (session : Session σ) (notes : List Note)
    (w' : World σ) : Prop where
  tasks : w'.tasks = w.tasks
  flight : w'.flight = { w.flight with lock }
  session : w'.session = session
  log : w'.log = w.log ++ notes
  nextId : w'.nextId = max w.nextId (t.id + 1)
  /-- No flight has ended yet. -/
  unlanded : landings notes = []

/-- A call goes to a place or is gone. -/
structure Moved (w : World σ) (t : Task) (lock : Lock) (place : Option Place) (session : Session σ)
    (notes : List Note) (w' : World σ) : Prop where
  tasks (id : Nat) :
    w'.task? id = if id = t.id then place.map ({ t with place := · }) else w.task? id
  flight : w'.flight =
    { w.flight.after t.call notes with lock := if place.isSome then lock else lock.leave t.id }
  session : w'.session = session
  log : w'.log = w.log ++ notes
  nextId : w'.nextId = max w.nextId (t.id + 1)

theorem Opened.lock {w w₁ : World σ} {t : Task} {arrived : Lock} {s : Session σ} {notes : List Note}
    (opened : Opened w t arrived s notes w₁) : w₁.flight.lock = arrived := by
  rw [opened.flight]

theorem Moved.lock {w w₁ : World σ} {t : Task} {arrived : Lock} {place : Option Place}
    {s : Session σ} {notes : List Note} (moved : Moved w t arrived place s notes w₁) :
    w₁.flight.lock = if place.isSome then arrived else arrived.leave t.id := by
  rw [moved.flight]

/-- What is noted of the flight of a call that is over, if it had one. -/
def landing (t : Task) (lock : Lock) (s : Session σ) : List Note :=
  if lock.holder = some t.id then [.landed t.id s.state.connected] else []

def farewell (t : Task) (lock : Lock) (s : Session σ) (result : Except AuthError Value) :
    List Note :=
  landing t lock s ++ [.returned t.id ((s.concluded t.call result).told result t.call)]

/-- Who leaves tells its own result, unless it ran startup. -/
theorem returned_of_farewell (t : Task) (lock : Lock) (s : Session σ)
    (result : Except AuthError Value) (other : t.call.isStartup = false) :
    .returned t.id result ∈ farewell t lock s result := by
  unfold farewell
  rw [Session.told_of_other _ _ other]
  exact List.mem_append_right _ List.mem_cons_self

section Moves

variable {w w₁ : World σ} {t : Task} {lock : Lock} {s : Session σ} {notes : List Note}

theorem Opened.note (opened : Opened w t lock s notes w₁) (n : Note)
    (quiet : n.landed? = none := by rfl) : Opened w t lock s (notes ++ [n]) (w₁.note n) :=
  { opened with
    log := by simp [World.note, opened.log]
    unlanded := by simp [opened.unlanded, quiet] }

theorem Opened.after (opened : Opened w t lock w.session notes w₁) (s : Session σ) :
    Opened w t lock s.rested (notes ++ s.deeds.map (.did t.id)) (w₁.after t.id s) :=
  { opened with
    session := rfl
    log := by simp [World.after, opened.log]
    unlanded := by simp [opened.unlanded] }

theorem Opened.idle (opened : Opened w t lock w.session notes w₁) (rested : w.session.deeds = []) :
    Opened w t lock w.session notes (w₁.after t.id w.session) := by
  have idle := opened.after w.session
  rwa [rested, List.map_nil, List.append_nil, Session.rested_of_idle rested] at idle

theorem Opened.arrive (opened : Opened w t w.flight.lock w.session notes w₁) :
    Opened w t (w.flight.lock.arrive t.id) w.session notes
      (w₁.setFlightLock (w₁.flight.lock.arrive t.id)) :=
  { opened with flight := by rw [World.setFlightLock, opened.flight] }

theorem opened_start (w : World σ) (number : t.id = w.nextId) :
    Opened w t w.flight.lock w.session [.started t.id t.call]
      ({ w with nextId := w.nextId + 1 }.note (.started t.id t.call)) :=
  ⟨rfl, rfl, rfl, rfl, by simp [World.note, number], rfl⟩

theorem Moved.note {place : Option Place} (moved : Moved w t lock place s notes w₁) (n : Note)
    (quiet : n.landed? = none := by rfl) : Moved w t lock place s (notes ++ [n]) (w₁.note n) :=
  { moved with
    log := by simp [World.note, moved.log]
    flight := by
      rw [Flight.after_append _ _ _ (by simp [quiet])]
      exact moved.flight }

theorem Opened.place (opened : Opened w t lock s notes w₁) (knows : w.Knows t) (place : Place) :
    Moved w t lock (some place) s notes (w₁.place t place) := by
  have look (id : Nat) : w₁.task? id = w.task? id := by simp only [task?, opened.tasks]
  have known : w₁.Knows t := by rwa [Knows, Has, look]
  have tasks (id : Nat) : (w₁.place t place).task? id =
      if id = t.id then some { t with place } else w.task? id := by
    rw [task?_place known, look]
  refine ⟨tasks, ?_, ?_, ?_, ?_⟩ <;> unfold World.place <;> split <;>
    simp [opened.flight, opened.session, opened.log, opened.nextId,
      Flight.after_quiet _ _ opened.unlanded]

theorem Opened.remove (opened : Opened w t lock s notes w₁) (ashore : t.id ∉ lock.line) :
    Moved w t lock none s notes (w₁.remove t.id) := by
  refine ⟨fun id => ?_, ?_, opened.session, opened.log, opened.nextId⟩
  · rw [task?_remove]
    simp only [task?, opened.tasks, Option.map_none]
  · simpa [Lock.leave_absent ashore, World.remove, Flight.after_quiet _ _ opened.unlanded]
      using opened.flight

theorem Opened.leave (opened : Opened w t lock s notes w₁) (lined : t.id ∉ lock.queue) :
    Moved w t lock none s (notes ++ landing t lock s) ((w₁.landIfAboard t).remove t.id) := by
  obtain ⟨held, flight, rfl, log, nextId, unlanded⟩ := opened
  have tasks (id : Nat) : ((w₁.landIfAboard t).remove t.id).task? id =
      if id = t.id then none else w.task? id := by
    have kept : (w₁.landIfAboard t).tasks = w.tasks := by
      rw [← held]
      unfold World.landIfAboard
      split <;> rfl
    rw [task?_remove]
    simp only [task?, kept]
  refine ⟨tasks, ?_, ?_, ?_, ?_⟩ <;> unfold World.landIfAboard <;> split <;>
    simp_all [landing, World.remove, World.land, World.note, Lock.leave, Lock.filter_absent,
      Flight.after, Note.landed?]

theorem Moved.setStartupLock {place : Option Place} (moved : Moved w t lock place s notes w₁)
    (lock' : Lock) : Moved w t lock place s notes (w₁.setStartupLock lock') := { moved with }

theorem Moved.publish {place : Option Place} (moved : Moved w t lock place s notes w₁) :
    Moved w t lock place s notes w₁.publish := by
  unfold World.publish
  split
  · exact moved
  · exact { moved with }

theorem Moved.publishIf {place : Option Place} (moved : Moved w t lock place s notes w₁)
    (publishes : Bool) :
    Moved w t lock place s notes (if publishes then w₁.publish else w₁) := by
  split
  · exact moved.publish
  · exact moved

theorem Moved.endStartup {place : Option Place} (moved : Moved w t lock place s notes w₁) :
    Moved w t lock place s notes w₁.endStartup := { moved with }

theorem Moved.endInit {place : Option Place} (moved : Moved w t lock place s notes w₁)
    (starts : t.call.isStartup = true) (result : Except AuthError Value) :
    Moved w t lock place (s.concluded t.call result) notes
      (w₁.endInit (startupSucceeded result)) :=
  { moved with session := by simp [World.endInit, Session.concluded, starts, moved.session] }

theorem Opened.conclude (opened : Opened w t lock s notes w₁) (lined : t.id ∉ lock.queue)
    (result : Except AuthError Value) :
    Moved w t lock none (s.concluded t.call result) (notes ++ farewell t lock s result)
      (w₁.conclude t result) := by
  have left := opened.leave lined
  unfold World.conclude farewell
  rw [← List.append_assoc]
  cases call : t.call with
  | init =>
    have starts := left.endInit (by simp [call, Call.isStartup]) result
    rw [call] at starts
    exact (starts.publishIf t.publishes).note _
  | observe =>
    have starts := (left.endInit (by simp [call, Call.isStartup]) result).publish
    rw [call] at starts
    have finished := starts.endStartup.note
      (.returned t.id (.ok (.snapshot (s.concluded .observe result).state.snapshot)))
    simpa only [World.snapshot, World.endStartup, Session.told, starts.session] using finished
  | _ => exact (left.publishIf t.publishes).note _

/-- Where a call goes at the end of a stretch, unless it is gone. -/
def rest : Except AuthError Move → Option Place
  | .ok (.stop (.wait a)) => some (.asking a)
  | _ => none

theorem rest_eq_some {result : Except AuthError Move} {p : Place} (goes : rest result = some p) :
    ∃ a, result = .ok (.stop (.wait a)) ∧ p = .asking a := by
  match result with
  | .ok (.stop (.wait a)) => exact ⟨a, rfl, (Option.some.inj goes).symm⟩
  | .ok (.stop (.finish v)) | .ok .board | .error e => contradiction

def settled (s : Session σ) (call : Call) : Except AuthError Move → Session σ
  | .ok (.stop (.finish v)) => s.concluded call (.ok v)
  | .error e => s.concluded call (.error e)
  | _ => s

section Settled

variable (s : Session σ) (call : Call) (result : Except AuthError Move)

variable {call} in
theorem settled_of_other (other : call.isStartup = false) : settled s call result = s := by
  unfold settled
  split <;> simp [Session.concluded_of_other, other]

@[simp] theorem settled_phase : (settled s call result).state.phase = s.state.phase := by
  unfold settled
  split <;> simp

@[simp] theorem settled_token : (settled s call result).state.token = s.state.token := by
  unfold settled
  split <;> simp

@[simp] theorem settled_store : (settled s call result).store = s.store := by
  unfold settled
  split <;> simp

@[simp] theorem settled_deeds : (settled s call result).deeds = s.deeds := by
  unfold settled
  split <;> simp

@[simp] theorem settled_hasWallet : (settled s call result).hasWallet = s.hasWallet := by
  unfold settled
  split <;> simp

@[simp] theorem settled_chain : (settled s call result).chain = s.chain := by
  unfold settled
  split <;> simp

end Settled

def closing (t : Task) (lock : Lock) (s : Session σ) : Except AuthError Move → List Note
  | .ok (.stop (.wait a)) => [.asked t.id a.request]
  | .ok (.stop (.finish v)) => farewell t lock s (.ok v)
  | .ok .board => []
  | .error e => farewell t lock s (.error e)

theorem Opened.settle (opened : Opened w t lock s notes w₁) (knows : w.Knows t)
    (lined : t.id ∉ lock.queue) (result : Except AuthError Stop) :
    Moved w t lock (rest (result.map .stop)) (settled s t.call (result.map .stop))
      (notes ++ closing t lock s (result.map .stop)) (w₁.settle t result) := by
  match result with
  | .ok (.wait a) => exact (opened.place knows (.asking a)).note _
  | .ok (.finish v) => exact opened.conclude lined (.ok v)
  | .error e => exact opened.conclude lined (.error e)

end Moves

end World

end WalletSession
