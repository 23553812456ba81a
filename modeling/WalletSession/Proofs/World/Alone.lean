import WalletSession.Proofs.World.Reconnect

/-! A call that gets the flight at once, with people who answer as they like. Its course is that of its
stretches of work, one after the other: whom it turns to, what it returns and which session it leaves
do not depend on anything else in the world. -/
namespace WalletSession

/-- Somebody is asked, or the store is told to do something. -/
inductive Contact
  | question (request : Request)
  | deed (deed : Deed)

def Note.contact? : Note → Option Contact
  | .asked _ request => some (.question request)
  | .did _ deed => some (.deed deed)
  | _ => none

/-- Whom the calls of a history have turned to, in order. -/
def contacts (log : List Note) : List Contact := log.filterMap Note.contact?

def Note.result? : Note → Option (Except AuthError Value)
  | .returned _ result => some result
  | _ => none

/-- What the last call to return has returned. -/
def lastResult (log : List Note) : Option (Except AuthError Value) :=
  (log.filterMap Note.result?).getLast?

section Histories

@[simp] theorem contacts_nil : contacts [] = [] := rfl

@[simp] theorem contacts_append (first second : List Note) :
    contacts (first ++ second) = contacts first ++ contacts second := List.filterMap_append

@[simp] theorem contacts_cons (n : Note) (notes : List Note) :
    contacts (n :: notes) = n.contact?.toList ++ contacts notes := by
  unfold contacts
  rw [List.filterMap_cons]
  cases n.contact? <;> rfl

@[simp] theorem contacts_dids (id : Nat) (deeds : List Deed) :
    contacts (deeds.map (.did id)) = deeds.map .deed := by
  induction deeds with
  | nil => rfl
  | cons deed deeds ih => simp [ih, Note.contact?]

@[simp] theorem contacts_landing {σ : Type} (t : Task) (lock : Lock) (s : Session σ) :
    contacts (World.landing t lock s) = [] := by
  unfold World.landing
  split <;> rfl

theorem lastResult_returned (log : List Note) (id : Nat) (result : Except AuthError Value) :
    lastResult (log ++ [.returned id result]) = some result := by
  simp [lastResult, Note.result?]

end Histories

/-- How many questions a call may ask from here on, with this one. -/
def Await.remaining : Await → Nat
  | .connectedWallet => 8
  | .walletPrompt => 7
  | .status _ => 6
  | .account => 5
  | .issue _ => 4
  | .signature _ => 3
  | .publicKey _ => 2
  | .verify _ => 1
  | _ => 0

theorem Await.remaining_le (a : Await) : a.remaining ≤ 8 := by
  cases a <;> simp [remaining]

theorem Await.remaining_pos {a : Await} (aboard : a.isAboard = true) : 0 < a.remaining := by
  cases a <;> first | contradiction | exact Nat.succ_pos _

theorem exists_stop {result : Except AuthError Move} (stops : result ≠ .ok .board) :
    ∃ stop : Except AuthError Stop, result = stop.map .stop := by
  match result with
  | .ok .board => exact absurd rfl stops
  | .ok (.stop stop) => exact ⟨.ok stop, rfl⟩
  | .error e => exact ⟨.error e, rfl⟩

theorem Stop.map_inj {stop stop' : Except AuthError Stop}
    (same : stop.map Move.stop = stop'.map Move.stop) : stop = stop' := by
  cases stop <;> cases stop' <;> simp_all [Except.map]

variable {σ : Type} [TokenStore σ]

namespace Session

/-- How a call goes on from the end of a stretch: how many questions it asks, whom it has turned to
when it is over, what it returns and which session it leaves. -/
inductive Goes (reply : Replies) (call : Call) :
    Nat → Except AuthError Stop → Session σ → List Contact → Except AuthError Value →
      Session σ → Prop
  | returns {s : Session σ} {v : Value} :
      Goes reply call 0 (.ok (.finish v)) s (s.deeds.map .deed) (.ok v) s.rested
  | fails {s : Session σ} {e : AuthError} :
      Goes reply call 0 (.error e) s (s.deeds.map .deed) (.error e) s.rested
  | asks {n : Nat} {s s' last : Session σ} {a : Await} {next : Except AuthError Stop}
      {later : List Contact} {value : Except AuthError Value}
      (performed : s.rested.perform (resume call a (reply a.request)) = (next.map .stop, s'))
      (goes : Goes reply call n next s' later value last) :
      Goes reply call (n + 1) (.ok (.wait a)) s
        (s.deeds.map .deed ++ .question a.request :: later) value last

/-- How a call goes on from a stretch, however many questions it asks. -/
def Runs (reply : Replies) (call : Call) (stretch : Except AuthError Stop × Session σ)
    (told : List Contact) (value : Except AuthError Value) (last : Session σ) : Prop :=
  ∃ n, Goes reply call n stretch.1 stretch.2 told value last

/-- The course of a call that gets the flight at once. -/
def Plays (reply : Replies) (call : Call) (s : Session σ) (told : List Contact)
    (value : Except AuthError Value) (last : Session σ) : Prop :=
  Runs reply call (s.perform (aboard call)) told value last

variable {s s' last : Session σ} {call : Call} {reply : Replies} {a : Await} {limit n : Nat}
  {stop : Except AuthError Stop} {told : List Contact} {value : Except AuthError Value}

theorem Turn.remaining {next : Await} {answer : Except AuthError a.Reply}
    (turn : Turn call s (.answer a answer) (.ok (.stop (.wait next))) s')
    (aboard : a.isAboard = true) : next.remaining < a.remaining := by
  cases turn with
  | asks asks => simpa [Occasion.isAshore, aboard] using asks.ashore
  | prompts | starts | signs | submits | keepsChallenge => exact Nat.lt_succ_self _
  | revalidates checks => cases checks <;> simp [Await.remaining]
  | fallsBack _ checked =>
    cases a <;> first | contradiction | simp [Await.remaining]

/-- The call waits on its flight for what it may wait for, and has not many questions left. -/
structure Due (s : Session σ) (call : Call) (limit : Nat) (a : Await) : Prop where
  suits : a.isOf call = true
  aboard : a.isAboard = true
  fits : a.Fits s.state.phase
  limited : a.remaining ≤ limit

/-- An answer brings the call to another stop, and has it ask a question less. -/
theorem Due.resumes (due : s.Due call limit a) (answer : Except AuthError a.Reply) :
    ∃ (next : Except AuthError Stop) (s' : Session σ) (fewer : Nat),
      s.perform (resume call a answer) = (next.map .stop, s') ∧
      Turn call s (.answer a answer) (next.map .stop) s' ∧ limit = fewer + 1 ∧
      ∀ b, next = .ok (.wait b) → s'.rested.Due call fewer b := by
  obtain ⟨suits, aboard, fits, limited⟩ := due
  obtain ⟨⟨result, s'⟩, performed⟩ : ∃ ended, s.perform (resume call a answer) = ended := ⟨_, rfl⟩
  have turn : Turn call s (.answer a answer) result s' := by
    have fits' : (Occasion.answer a answer).Fits call s.state.phase := ⟨suits, fits⟩
    have turn := Session.turn s fits'
    rwa [Occasion.work, performed] at turn
  obtain ⟨next, rfl⟩ : ∃ next : Except AuthError Stop, result = next.map .stop := by
    apply exists_stop
    rintro rfl
    simpa [Occasion.isAshore, aboard] using turn.board_ashore
  obtain ⟨fewer, rfl⟩ : ∃ fewer, limit = fewer + 1 :=
    ⟨limit - 1, by have := Await.remaining_pos aboard; omega⟩
  refine ⟨next, s', fewer, performed, turn, rfl, ?_⟩
  rintro b rfl
  obtain ⟨suits', fits'⟩ := turn.waits ⟨suits, fits⟩
  have aboard' : b.isAboard = true := by
    rw [turn.aboard, Occasion.isAshore, aboard]
    rfl
  exact ⟨suits', aboard', fits', Nat.le_of_lt_succ (Nat.lt_of_lt_of_le (turn.remaining aboard) limited)⟩

theorem turn_aboard (s : Session σ) (boards : call.boards = true) :
    Turn call s .flight ((s.perform (aboard call)).1.map .stop) (s.perform (aboard call)).2 := by
  have fits : Occasion.flight.Fits call s.state.phase := .inr boards
  have turn := Session.turn s fits
  rwa [show s.perform (Occasion.flight.work call) = _ from perform_stop s (aboard call)] at turn

theorem boards_due (s : Session σ) (boards : call.boards = true) :
    ∀ a, (s.perform (aboard call)).1 = .ok (.wait a) →
      (s.perform (aboard call)).2.rested.Due call 8 a := by
  intro a waits
  have turn := turn_aboard s boards
  rw [waits] at turn
  obtain ⟨suits, fits⟩ := turn.waits (.inr boards)
  exact ⟨suits, turn.aboard, fits, a.remaining_le⟩

/-- Every call comes to an end, whatever it is answered. -/
theorem goes (reply : Replies) (stop : Except AuthError Stop) (s : Session σ)
    (due : ∀ a, stop = .ok (.wait a) → s.rested.Due call limit a) :
    ∃ n told value last, Goes reply call n stop s told value last := by
  induction limit generalizing s stop with
  | zero =>
    match stop with
    | .error e => exact ⟨0, _, _, _, .fails⟩
    | .ok (.finish v) => exact ⟨0, _, _, _, .returns⟩
    | .ok (.wait a) =>
      obtain ⟨_, _, _, _, _, impossible, _⟩ := (due a rfl).resumes (reply a.request)
      contradiction
  | succ limit ih =>
    match stop with
    | .error e => exact ⟨0, _, _, _, .fails⟩
    | .ok (.finish v) => exact ⟨0, _, _, _, .returns⟩
    | .ok (.wait a) =>
      obtain ⟨next, s', fewer, performed, _, same, due⟩ := (due a rfl).resumes (reply a.request)
      obtain rfl := Nat.succ.inj same
      obtain ⟨n, told, value, last, goes⟩ := ih next s' due
      exact ⟨n + 1, _, _, _, .asks performed goes⟩

theorem plays (reply : Replies) (s : Session σ) (boards : call.boards = true) :
    ∃ told value last, Plays reply call s told value last := by
  obtain ⟨n, told, value, last, goes⟩ := goes reply _ _ (boards_due s boards)
  exact ⟨told, value, last, n, goes⟩

/-- No call asks more questions than it has left. -/
theorem Goes.limited (goes : Goes reply call n stop s told value last)
    (due : ∀ a, stop = .ok (.wait a) → s.rested.Due call limit a) : n ≤ limit := by
  induction goes generalizing limit with
  | returns | fails => exact Nat.zero_le limit
  | @asks n s s' last a next later value performed goes ih =>
    obtain ⟨next', s'', fewer, performed', _, rfl, due⟩ := (due a rfl).resumes (reply a.request)
    obtain ⟨same, rfl⟩ := Prod.mk.inj (performed.symm.trans performed')
    obtain rfl := Stop.map_inj same
    exact Nat.succ_le_succ (ih due)

end Session

namespace World

variable {w w' done : World σ} {t : Task} {lock : Lock} {notes : List Note} {s last : Session σ}
  {call : Call} {reply : Replies} {told : List Contact} {value : Except AuthError Value}
  {stop : Except AuthError Stop} {n : Nat}

/-- Starts a call and answers it until it is over. No call asks more than eight questions. -/
def seeThrough (w : World σ) (reply : Replies) (call : Call) (publishes : Bool) : World σ :=
  (w.step (.start call publishes)).heed reply w.nextId 8

/-- A call has come and gone, and nobody is on the flight. -/
structure Ended (w done : World σ) (told : List Contact) (value : Except AuthError Value)
    (last : Session σ) : Prop where
  orderly : done.Orderly
  free : done.flight.lock.isFree = true
  session : done.session = last
  log : ∃ notes id, done.log = w.log ++ notes ++ [.returned id value] ∧ contacts notes = told

omit [TokenStore σ] in
theorem Ended.result (ended : Ended w done told value last) : lastResult done.log = some value := by
  obtain ⟨notes, id, log, _⟩ := ended.log
  rw [log, lastResult_returned]

omit [TokenStore σ] in
theorem Ended.turns_to (ended : Ended w done told value last) :
    ∃ notes, done.log = w.log ++ notes ∧ contacts notes = told := by
  obtain ⟨notes, id, log, same⟩ := ended.log
  refine ⟨notes ++ [.returned id value], by rw [log, List.append_assoc], ?_⟩
  simp [same, Note.contact?]

omit [TokenStore σ] in
theorem Ended.followed {later : List Contact} {value' : Except AuthError Value} {s : Session σ}
    (ended : Ended w w' told value s) (next : Ended w' done later value' last) :
    Ended w done (told ++ later) value' last := by
  obtain ⟨notes, log, same⟩ := ended.turns_to
  obtain ⟨orderly, free, session, notes', id, log', same'⟩ := next
  refine ⟨orderly, free, session, notes ++ notes', id, ?_, ?_⟩
  · rw [log', log, List.append_assoc w.log]
  · rw [contacts_append, same, same']

/-- A call that has stopped goes on as its stretches do, and nobody takes the flight after it. -/
theorem Ended.of_goes (goes : Session.Goes reply call n stop s told value last)
    (orderly : w'.Orderly) (only : t.call = call) (other : call.isStartup = false)
    (moved : Moved w t lock (rest (stop.map .stop)) s.rested
      (notes ++ s.deeds.map (.did t.id) ++ closing t lock s.rested (stop.map .stop)) w')
    (leaves : (lock.leave t.id).isFree = true) {m : Nat} (enough : n ≤ m) :
    Ended w (w'.heed reply t.id m) (contacts notes ++ told) value last := by
  induction goes generalizing w w' t notes lock m with
  | @returns s v | @fails s e =>
    have other : t.call.isStartup = false := only ▸ other
    have gone : w'.task? t.id = none := by
      rw [moved.tasks, if_pos rfl]
      rfl
    rw [heed_idle gone]
    refine ⟨orderly, by rwa [moved.lock], moved.session,
      notes ++ s.deeds.map (.did t.id) ++ landing t lock s.rested, t.id, ?_, ?_⟩
    · rw [moved.log]
      simp [Except.map, closing, farewell, Session.told_of_other _ _ other]
    · simp
  | @asks n s s' last a next later value performed goes ih =>
    obtain ⟨m, rfl⟩ : ∃ k, m = k + 1 := ⟨m - 1, by omega⟩
    let t' : Task := { t with place := .asking a }
    have has : w'.Has t' := by
      rw [Has, moved.tasks, if_pos rfl]
      rfl
    have resumed : w'.session.perform (Session.resume t'.call a (reply a.request)) =
        (next.map .stop, s') := by rwa [moved.session, only]
    have answered : Moved w' t' _ _ _ ([.answered t'.id a.method (reply a.request)] ++
        s'.deeds.map (.did t'.id) ++ closing t' _ _ _) _ := orderly.responds has rfl next resumed
    rw [settled_of_other _ _ (only ▸ other : t.call.isStartup = false)] at answered
    have orderly' : (w'.respond reply t'.id).Orderly := by
      rw [respond_eq (t := t') has rfl]
      exact orderly.step _
    have only' : t'.call = call := only
    obtain ⟨orderly, free, session, later, id, log, same⟩ :=
      ih orderly' only' answered (by rwa [moved.lock])
        (Nat.le_of_succ_le_succ enough)
    refine ⟨orderly, free, session,
      notes ++ s.deeds.map (.did t.id) ++ .asked t.id a.request :: later, id, ?_, ?_⟩
    · refine log.trans ?_
      rw [moved.log]
      simp [Except.map, closing]
    · simp [same, Note.contact?]

/-- A call that finds the flight free plays its course. -/
theorem Orderly.sees (orderly : w.Orderly) (free : w.flight.lock.isFree = true)
    (boards : call.boards = true) (plays : Session.Plays reply call w.session told value last)
    (publishes : Bool) : Ended w (w.seeThrough reply call publishes) told value last := by
  obtain ⟨n, goes⟩ := plays
  have bound := goes.limited (Session.boards_due w.session boards)
  obtain ⟨t, fresh, only, moved⟩ := orderly.embarks free boards publishes rfl
  have ended := Ended.of_goes goes (orderly.step _) only
    (by cases call <;> first | rfl | contradiction) moved (orderly.lock.leave_arrive free) bound
  rw [fresh] at ended
  simpa [seeThrough, Note.contact?] using ended

end World

end WalletSession
