import WalletSession.Proofs.Session.Stretches
import WalletSession.Proofs.World.Bookkeeping

/-! What one action may do to a world. `Comes` says how a call comes to a stretch of work and `Moves`
has a constructor for each way in which an action can end; invariants of worlds go by cases on it and
do not open the actions. -/
namespace WalletSession

variable {σ : Type} [TokenStore σ]

namespace Place

/-- In line for the flight, or on it. -/
def isFlying : Place → Bool
  | .startupTurn => false
  | .flightTurn _ => true
  | .asking a => a.isAboard

end Place

/-- A call waits only where it may, and only a session with a wallet gets to fly before an edge is
taken. -/
def Task.Suits (t : Task) (s : Session σ) : Prop :=
  match t.place with
  | .startupTurn => t.call = .observe
  | .flightTurn _ => t.call.isStartup = true ∨ t.call.boards = true
  | .asking a =>
    a.isOf t.call = true ∧ a.Fits s.state.phase ∧ (a.isEarly = true → s.hasWallet = true)

namespace Note

def id : Note → Nat
  | .started id _ | .did id _ | .asked id _ | .answered id _ _ | .boarded id | .landed id _
  | .returned id _ | .dropped id => id

/-- The call is over, or its flight is. -/
def isFinal : Note → Bool
  | .landed .. | .returned .. | .dropped _ => true
  | _ => false

end Note

namespace World

/-- What holds between two actions: those in line are under way, whoever is aboard holds the
flight, and numbers are given out once. -/
structure Orderly (w : World σ) : Prop where
  rested : w.session.deeds = []
  lock : w.flight.lock.Orderly
  line {id : Nat} (lined : id ∈ w.flight.lock.line) :
    ∃ t, t.id = id ∧ w.Has t ∧ t.place.isFlying = true
  aboard {t : Task} (has : w.Has t) {a : Await} (asking : t.place = .asking a)
    (aboard : a.isAboard = true) : w.flight.lock.holder = some t.id
  suits {t : Task} (has : w.Has t) : t.Suits w.session
  number {t : Task} (has : w.Has t) : t.id < w.nextId
  noted {n : Note} (member : n ∈ w.log) : n.id < w.nextId

/-- How a call comes to a stretch of work, the flight lock that it finds and what is noted of its
coming. -/
inductive Comes (w : World σ) (t : Task) : Occasion → Lock → List Note → Prop
  | fresh (number : t.id = w.nextId) (place : t.place = .startupTurn) :
      Comes w t .start w.flight.lock [.started t.id t.call]
  | roused (has : w.Has t) (place : t.place = .startupTurn) :
      Comes w t .start w.flight.lock []
  | answered {a : Await} (has : w.Has t) (place : t.place = .asking a)
      (reply : Except AuthError a.Reply) :
      Comes w t (.answer a reply) w.flight.lock [.answered t.id a.method reply]
  | boards {occasion : Occasion} {notes : List Note}
      (comes : Comes w t occasion w.flight.lock notes)
      (turn : Session.Turn t.call w.session occasion (.ok .board) w.session)
      (free : w.flight.lock.isFree = true) :
      Comes w t .flight (w.flight.lock.arrive t.id) (notes ++ [.boarded t.id])
  | isCalled {seen : Nat} (has : w.Has t) (place : t.place = .flightTurn seen)
      (holds : w.flight.lock.holder = some t.id) (unserved : w.isServed seen = false) :
      Comes w t .flight w.flight.lock [.boarded t.id]

/-- What is noted of a call that is dropped: one that waits for its turn has no flight to end, even
if the lock has been handed to it. -/
def parting (w : World σ) (t : Task) : List Note :=
  match t.place with
  | .flightTurn _ => []
  | _ => landing t w.flight.lock w.session

/-- What an action of a call may end in. -/
inductive Moves (w w' : World σ) : Nat → Prop
  | idle {id : Nat} (same : w' = w) : Moves w w' id
  | turns {t : Task} {occasion : Occasion} {lock : Lock} {notes : List Note}
      {result : Except AuthError Move} {s : Session σ} (comes : Comes w t occasion lock notes)
      (turn : Session.Turn t.call w.session occasion result s) (stops : result ≠ .ok .board)
      (moved : Moved w t lock (rest result) (settled s.rested t.call result)
        (notes ++ s.deeds.map (.did t.id) ++ closing t lock s.rested result) w')
      (performed : w.session.perform (occasion.work t.call) = (result, s)) :
      Moves w w' t.id
  | queues {t : Task} {occasion : Occasion} {notes : List Note}
      (comes : Comes w t occasion w.flight.lock notes)
      (turn : Session.Turn t.call w.session occasion (.ok .board) w.session)
      (moved : Moved w t (w.flight.lock.arrive t.id) (some (.flightTurn w.flight.completed))
        w.session notes w') : Moves w w' t.id
  | shares {t : Task} {seen : Nat} (has : w.Has t) (place : t.place = .flightTurn seen)
      (holds : w.flight.lock.holder = some t.id) (served : w.isServed seen = true)
      (moved : Moved w t w.flight.lock none (w.session.concluded t.call (.ok t.call.sharedValue))
        [.returned t.id ((w.session.concluded t.call (.ok t.call.sharedValue)).told
          (.ok t.call.sharedValue) t.call)] w') : Moves w w' t.id
  | waits {t : Task} (number : t.id = w.nextId) (only : t.call = .observe)
      (moved : Moved w t w.flight.lock (some .startupTurn) w.session [.started t.id t.call] w') :
      Moves w w' t.id
  | observes {t : Task} {notes : List Note} (comes : Comes w t .start w.flight.lock notes)
      (moved : Moved w t w.flight.lock none w.session
        (notes ++ [.returned t.id (.ok (.snapshot w.session.state.snapshot))]) w')
      (only : t.call = .observe) : Moves w w' t.id
  | drops {t : Task} (has : w.Has t)
      (moved : Moved w t w.flight.lock none w.session (.dropped t.id :: parting w t) w') :
      Moves w w' t.id

def caller (w : World σ) : Action → Nat
  | .start .. => w.nextId
  | .answer id .. | .wake id | .drop id => id

section Comes

variable {w : World σ} {t : Task} {occasion : Occasion} {lock : Lock} {notes : List Note}

omit [TokenStore σ] in
theorem Orderly.fresh (orderly : w.Orderly) (number : t.id = w.nextId) : w.task? t.id = none := by
  cases found : w.task? t.id with
  | none => rfl
  | some u =>
    obtain ⟨same, has⟩ := has_of_task? found
    have := orderly.number has
    omega

omit [TokenStore σ] in
theorem Orderly.ashore (orderly : w.Orderly) (has : w.Has t) (place : t.place.isFlying = false) :
    t.id ∉ w.flight.lock.line := by
  intro lined
  obtain ⟨u, same, hasU, flying⟩ := orderly.line lined
  obtain rfl := hasU.unique has same
  rw [place] at flying
  contradiction

omit [TokenStore σ] in
theorem Orderly.ashore_fresh (orderly : w.Orderly) (number : t.id = w.nextId) :
    t.id ∉ w.flight.lock.line := by
  intro lined
  obtain ⟨u, same, has, _⟩ := orderly.line lined
  have := orderly.number has
  omega

omit [TokenStore σ] in
/-- Whoever asks is not waiting for a turn: it is aboard, or not in line at all. -/
theorem Orderly.not_waiting (orderly : w.Orderly) (has : w.Has t) {a : Await}
    (place : t.place = .asking a) : t.id ∉ w.flight.lock.queue := by
  cases flies : a.isAboard with
  | true => exact orderly.lock.not_waiting (orderly.aboard has place flies)
  | false =>
    intro waits
    refine orderly.ashore has ?_ (Lock.mem_line.mpr (.inr waits))
    rw [place, Place.isFlying, flies]

theorem Comes.known (comes : Comes w t occasion lock notes) : t.id = w.nextId ∨ w.Has t := by
  induction comes with
  | fresh number _ => exact .inl number
  | roused has | answered has | isCalled has => exact .inr has
  | boards _ _ _ ih => exact ih

theorem Comes.knows (comes : Comes w t occasion lock notes) (orderly : w.Orderly) :
    w.Knows t :=
  comes.known.symm.imp_right orderly.fresh

theorem Comes.mayFly (comes : Comes w t occasion lock notes) (orderly : w.Orderly)
    (turn : Session.Turn t.call w.session occasion (.ok .board) w.session) :
    t.call.isStartup = true ∨ t.call.boards = true := by
  cases turn with
  | boards flies => exact .inr flies
  | ready =>
    cases comes with
    | answered has place _ =>
      have suits := orderly.suits has
      rw [Task.Suits, place] at suits
      exact .inl suits.1

theorem Comes.fits (comes : Comes w t occasion lock notes) (orderly : w.Orderly) :
    occasion.Fits t.call w.session.state.phase := by
  cases comes with
  | fresh | roused => trivial
  | answered has place reply =>
    have suits := orderly.suits has
    rw [Task.Suits, place] at suits
    exact ⟨suits.1, suits.2.1⟩
  | boards comes turn free => exact comes.mayFly orderly turn
  | isCalled has place =>
    have suits := orderly.suits has
    rwa [Task.Suits, place] at suits

theorem Comes.not_waiting (comes : Comes w t occasion lock notes) (orderly : w.Orderly) :
    t.id ∉ lock.queue := by
  have off {id : Nat} (absent : id ∉ w.flight.lock.line) : id ∉ w.flight.lock.queue :=
    fun waits => absent (Lock.mem_line.mpr (.inr waits))
  cases comes with
  | fresh number _ => exact off (orderly.ashore_fresh number)
  | roused has place => exact off (orderly.ashore has (by rw [place, Place.isFlying]))
  | answered has place reply => exact orderly.not_waiting has place
  | boards comes turn free => exact orderly.lock.first_of_free free
  | isCalled has place holds => exact orderly.lock.not_waiting holds

/-- Whoever begins anew has just started, unless it waited for startup. -/
theorem Comes.starts (comes : Comes w t .start lock notes) (orderly : w.Orderly)
    (other : t.call.isStartup = false) : notes = [.started t.id t.call] := by
  cases comes with
  | fresh => rfl
  | roused has place =>
    have suits := orderly.suits has
    rw [Task.Suits, place] at suits
    rw [suits] at other
    contradiction

theorem Comes.ashore (comes : Comes w t occasion lock notes) (orderly : w.Orderly)
    (ashore : occasion.isAshore = true) : t.id ∉ w.flight.lock.line := by
  cases comes with
  | fresh number _ => exact orderly.ashore_fresh number
  | roused has place => exact orderly.ashore has (by rw [place, Place.isFlying])
  | answered has place _ =>
    refine orderly.ashore has ?_
    rw [place, Place.isFlying]
    simpa [Occasion.isAshore] using ashore
  | boards | isCalled => contradiction

/-- A call that waits aboard comes with its answer, and for nothing else. -/
theorem Comes.answers (comes : Comes w t occasion lock notes) (orderly : w.Orderly) (has : w.Has t)
    {a : Await} (place : t.place = .asking a) (aboard : a.isAboard = true) :
    ∃ reply, occasion = .answer a reply ∧ notes = [.answered t.id a.method reply] := by
  have lined : t.id ∈ w.flight.lock.line :=
    Lock.mem_line.mpr (.inl (orderly.aboard has place aboard))
  cases comes with
  | fresh number => exact absurd lined (orderly.ashore_fresh number)
  | roused _ waiting | isCalled _ waiting =>
    rw [waiting] at place
    contradiction
  | answered _ waiting reply =>
    rw [waiting] at place
    cases place
    exact ⟨reply, rfl, rfl⟩
  | boards comes turn _ => exact absurd lined (comes.ashore orderly turn.board_ashore)

theorem Comes.holds (comes : Comes w t occasion lock notes) (orderly : w.Orderly)
    (aboard : occasion.isAshore = false) : lock.holder = some t.id := by
  cases comes with
  | fresh | roused => contradiction
  | answered has place _ =>
    exact orderly.aboard has place (by simpa [Occasion.isAshore] using aboard)
  | boards _ _ free => rw [Lock.arrive_free free]
  | isCalled _ _ holds => exact holds

theorem Comes.boarding (comes : Comes w t .flight lock notes) :
    ∃ earlier, notes = earlier ++ [.boarded t.id] := by
  cases comes with
  | boards => exact ⟨_, rfl⟩
  | isCalled => exact ⟨[], rfl⟩

theorem Comes.mine (comes : Comes w t occasion lock notes) {n : Note} (member : n ∈ notes) :
    n.id = t.id := by
  induction comes with
  | boards _ _ _ ih =>
    rcases List.mem_append.mp member with earlier | last
    · exact ih earlier
    · rw [List.mem_singleton.mp last, Note.id]
  | roused => contradiction
  | _ => rw [List.mem_singleton.mp member, Note.id]

theorem Comes.mine_snoc (comes : Comes w t occasion lock notes) {last n : Note}
    (mine : last.id = t.id) (member : n ∈ notes ++ [last]) : n.id = t.id := by
  rcases List.mem_append.mp member with noted | now
  · exact comes.mine noted
  · rw [List.mem_singleton.mp now, mine]

theorem Comes.undone (comes : Comes w t occasion lock notes) (id : Nat) (deed : Deed) :
    .did id deed ∉ notes := by
  induction comes with
  | boards _ _ _ ih => simp [ih]
  | _ => simp

/-- Nothing is over when a call comes. -/
theorem Comes.ongoing (comes : Comes w t occasion lock notes) {n : Note} (member : n ∈ notes) :
    n.isFinal = false := by
  induction comes with
  | boards _ _ _ ih =>
    rcases List.mem_append.mp member with earlier | last
    · exact ih earlier
    · rw [List.mem_singleton.mp last]
      rfl
  | roused => contradiction
  | _ =>
    rw [List.mem_singleton.mp member]
    rfl

theorem Comes.unasked (comes : Comes w t occasion lock notes) (id : Nat) (request : Request) :
    .asked id request ∉ notes := by
  induction comes with
  | boards _ _ _ ih => simp [ih]
  | _ => simp

omit [TokenStore σ] in
theorem farewell_final {s : Session σ} {result : Except AuthError Value} {n : Note}
    (member : n ∈ farewell t lock s result) : n.isFinal = true := by
  unfold farewell landing at member
  split at member <;> simp at member
  · rcases member with rfl | rfl <;> rfl
  · rw [member, Note.isFinal]

omit [TokenStore σ] in
theorem parting_final {n : Note} (member : n ∈ .dropped t.id :: parting w t) :
    n.id = t.id ∧ n.isFinal = true := by
  unfold parting landing at member
  split at member
  · rw [List.mem_singleton.mp member]
    exact ⟨rfl, rfl⟩
  · split at member <;> simp only [List.mem_cons, List.not_mem_nil, or_false] at member <;>
      rcases member with rfl | rfl <;> exact ⟨rfl, rfl⟩

omit [TokenStore σ] in
theorem closing_cases {s : Session σ} {result : Except AuthError Move} {n : Note}
    (member : n ∈ closing t lock s result) :
    n.isFinal = true ∨
      ∃ a : Await, result = .ok (.stop (.wait a)) ∧ n = .asked t.id a.request := by
  match result with
  | .ok (.stop (.wait a)) => exact .inr ⟨a, rfl, List.mem_singleton.mp member⟩
  | .ok .board => contradiction
  | .ok (.stop (.finish v)) | .error e => exact .inl (farewell_final member)

omit [TokenStore σ] in
theorem closing_undone (s : Session σ) (result : Except AuthError Move) (id : Nat) (deed : Deed) :
    .did id deed ∉ closing t lock s result := by
  intro member
  rcases closing_cases member with final | ⟨_, _, ⟨⟩⟩
  exact Bool.false_ne_true final

end Comes

section Inversion

variable {w w₁ : World σ} {t : Task} {lock : Lock} {notes : List Note}

theorem Opened.proceed_eq {work : Act σ Move} {result : Except AuthError Stop} {s s' : Session σ}
    (opened : Opened w t lock s notes w₁) (performed : s.perform work = (result.map .stop, s')) :
    w₁.proceed t work = (w₁.after t.id s').settle t result := by
  unfold World.proceed
  rw [run_eq, opened.session, performed]
  cases result <;> rfl

theorem settle_moves {occasion : Occasion} {result : Except AuthError Stop} {s : Session σ}
    (orderly : w.Orderly) (comes : Comes w t occasion lock notes)
    (opened : Opened w t lock w.session notes w₁)
    (turn : Session.Turn t.call w.session occasion (result.map .stop) s)
    (performed : w.session.perform (occasion.work t.call) = (result.map .stop, s)) :
    Moves w ((w₁.after t.id s).settle t result) t.id := by
  refine .turns comes turn ?_
    ((opened.after s).settle (comes.knows orderly) (comes.not_waiting orderly) result) performed
  cases result <;> simp [Except.map]

/-- A call that has the flight goes on as its work does. -/
theorem Opened.embark {result : Except AuthError Stop} {s : Session σ}
    (opened : Opened w t lock w.session notes w₁) (knows : w.Knows t) (lined : t.id ∉ lock.queue)
    (performed : w.session.perform (Session.aboard t.call) = (result, s)) :
    Moved w t lock (rest (result.map .stop)) (settled s.rested t.call (result.map .stop))
      (notes ++ [.boarded t.id] ++ s.deeds.map (.did t.id) ++
        closing t lock s.rested (result.map .stop)) (w₁.embark t) := by
  have noted := opened.note (.boarded t.id)
  unfold World.embark
  rw [run_eq, noted.session, performed]
  exact (noted.after s).settle knows lined result

theorem embark_moves (orderly : w.Orderly)
    (comes : Comes w t .flight lock (notes ++ [.boarded t.id]))
    (opened : Opened w t lock w.session notes w₁) : Moves w (w₁.embark t) t.id := by
  have turn := Session.turn w.session (comes.fits orderly)
  have performed := Session.perform_stop w.session (Session.aboard t.call)
  rw [show w.session.perform (Occasion.flight.work t.call) = _ from performed] at turn
  refine .turns comes turn ?_ (opened.embark (comes.knows orderly) (comes.not_waiting orderly) rfl)
    performed
  cases (w.session.perform (Session.aboard t.call)).1 <;> simp [Except.map]

/-- A call boards the flight if it is free, and joins its line otherwise. -/
theorem board_moves {occasion : Occasion} (orderly : w.Orderly)
    (comes : Comes w t occasion w.flight.lock notes)
    (turn : Session.Turn t.call w.session occasion (.ok .board) w.session)
    (opened : Opened w t w.flight.lock w.session notes w₁) : Moves w (w₁.board t) t.id := by
  have arrived := opened.arrive
  unfold World.board
  simp only [opened.flight] at arrived ⊢
  cases free : w.flight.lock.isFree with
  | true => exact embark_moves orderly (.boards comes turn free) arrived
  | false => exact .queues comes turn (arrived.place (comes.knows orderly) _)

theorem proceed_moves {occasion : Occasion} (orderly : w.Orderly)
    (comes : Comes w t occasion w.flight.lock notes)
    (opened : Opened w t w.flight.lock w.session notes w₁) :
    Moves w (w₁.proceed t (occasion.work t.call)) t.id := by
  have turn := Session.turn w.session (comes.fits orderly)
  unfold World.proceed
  rw [run_eq, opened.session]
  generalize performed : w.session.perform (occasion.work t.call) = ended at turn
  match ended with
  | (.ok .board, s) =>
    obtain rfl := turn.board
    exact board_moves orderly comes turn (opened.idle orderly.rested)
  | (.ok (.stop stop), s) => exact settle_moves orderly comes opened turn performed
  | (.error e, s) => exact settle_moves orderly comes opened turn performed

omit [TokenStore σ] in
theorem Orderly.opened (orderly : w.Orderly) (has : w.Has t) :
    Opened w t w.flight.lock w.session [] w :=
  ⟨rfl, rfl, rfl, (List.append_nil _).symm, by have := orderly.number has; omega, rfl⟩

theorem endObserve_moves (orderly : w.Orderly) (comes : Comes w t .start w.flight.lock notes)
    (only : t.call = .observe)
    (opened : Opened w t w.flight.lock w.session notes w₁) : Moves w (w₁.endObserve t) t.id := by
  have gone := opened.remove (comes.ashore orderly rfl)
  have shown : w₁.snapshot = w.session.state.snapshot := by rw [World.snapshot, opened.session]
  exact .observes comes (shown ▸ gone.note _) only

theorem observe_moves (orderly : w.Orderly) (number : t.id = w.nextId) (place : t.place = .startupTurn)
    (only : t.call = .observe)
    (opened : Opened w t w.flight.lock w.session [.started t.id t.call] w₁) :
    Moves w (w₁.observe t) t.id := by
  have comes := Comes.fresh number place
  unfold World.observe
  split
  · exact endObserve_moves orderly comes only opened
  · split
    · exact proceed_moves orderly comes { opened with }
    · have opened : Opened w t w.flight.lock w.session _
          (w₁.setStartupLock (w₁.startup.lock.arrive t.id)) := { opened with }
      exact .waits number only (opened.place (comes.knows orderly) .startupTurn)

theorem start_moves (orderly : w.Orderly) (call : Call) (publishes : Bool) :
    Moves w (w.start call publishes) w.nextId := by
  let t : Task := { id := w.nextId, call, publishes, place := .startupTurn }
  have opened := opened_start w (t := t) rfl
  unfold World.start
  split
  · exact observe_moves orderly rfl rfl rfl opened
  · exact proceed_moves orderly (.fresh rfl rfl) opened

omit [TokenStore σ] in
/-- Who takes over a result hands the lock on, and no flight has ended. -/
theorem Orderly.shares (orderly : w.Orderly) (has : w.Has t)
    (holds : w.flight.lock.holder = some t.id) :
    Moved w t w.flight.lock none (w.session.concluded t.call (.ok t.call.sharedValue))
      [.returned t.id ((w.session.concluded t.call (.ok t.call.sharedValue)).told
        (.ok t.call.sharedValue) t.call)]
      ((w.setFlightLock w.flight.lock.release).conclude t (.ok t.call.sharedValue)) := by
  have handed : w.flight.lock.release = w.flight.lock.leave t.id := (Lock.leave_holder holds).symm
  have absent : t.id ∉ w.flight.lock.release.line := by
    rw [handed, orderly.lock.line_leave]
    simp
  have opened : Opened w t w.flight.lock.release w.session []
      (w.setFlightLock w.flight.lock.release) := { orderly.opened has with flight := rfl }
  have gone := opened.conclude (fun waits => absent (Lock.mem_line.mpr (.inr waits)))
    (.ok t.call.sharedValue)
  have ashore : w.flight.lock.release.holder ≠ some t.id :=
    fun holds => absent (Lock.mem_line.mpr (.inl holds))
  have told : farewell t w.flight.lock.release w.session (.ok t.call.sharedValue) =
      [.returned t.id ((w.session.concluded t.call (.ok t.call.sharedValue)).told
        (.ok t.call.sharedValue) t.call)] := by simp [farewell, landing, ashore]
  rw [told, List.nil_append] at gone
  refine { gone with flight := ?_ }
  rw [gone.flight, Option.isSome_none, ← handed, Lock.leave_absent absent]
  rfl

theorem takeTurn_moves {seen : Nat} (orderly : w.Orderly) (has : w.Has t)
    (place : t.place = .flightTurn seen) (holds : w.flight.lock.holder = some t.id) :
    Moves w (w.takeTurn t seen) t.id := by
  unfold World.takeTurn
  split
  next served => exact .shares has place holds served (orderly.shares has holds)
  next unserved =>
    refine embark_moves orderly (List.nil_append _ ▸ .isCalled has place holds ?_)
      (orderly.opened has)
    exact Bool.eq_false_iff.mpr unserved

theorem wake_moves (orderly : w.Orderly) (id : Nat) : Moves w (w.wake id) id := by
  unfold World.wake
  split
  next t found =>
    obtain ⟨rfl, has⟩ := has_of_task? found
    have opened := orderly.opened has
    split
    · exact .idle rfl
    next awake =>
      split
      next place =>
        have comes := Comes.roused has place
        have only : t.call = .observe := by
          have suits := orderly.suits has
          rwa [Task.Suits, place] at suits
        split
        · exact endObserve_moves orderly comes only opened
        · exact proceed_moves orderly comes opened
      next seen place =>
        refine takeTurn_moves orderly has place ?_
        simpa [isAwake, place] using awake
      next => exact .idle rfl
  next => exact .idle rfl

theorem answer_moves (orderly : w.Orderly) (id : Nat) (method : Method)
    (reply : Except AuthError method.Reply) : Moves w (w.answer id method reply) id := by
  unfold World.answer
  split
  next t found =>
    obtain ⟨rfl, has⟩ := has_of_task? found
    split
    next a place =>
      split
      next same =>
        subst same
        exact proceed_moves orderly (.answered has place reply) ((orderly.opened has).note _)
      next => exact .idle rfl
    next => exact .idle rfl
  next => exact .idle rfl

omit [TokenStore σ] in
/-- A dropped call gives up its place in line or ends its flight. -/
theorem Orderly.dropped (orderly : w.Orderly) (has : w.Has t) :
    Moved w t w.flight.lock none w.session (.dropped t.id :: parting w t)
      (let w := (w.remove t.id).note (.dropped t.id)
      match t.place with
      | .flightTurn _ => w.setFlightLock (w.flight.lock.leave t.id)
      | _ => w.landIfAboard t) := by
  have opened := (orderly.opened has).note (.dropped t.id)
  have elsewhere (waiting : t.id ∉ w.flight.lock.queue) :
      Moved w t w.flight.lock none w.session (.dropped t.id :: landing t w.flight.lock w.session)
        (((w.remove t.id).note (.dropped t.id)).landIfAboard t) := by
    have swap : ((w.remove t.id).note (.dropped t.id)).landIfAboard t =
        ((w.note (.dropped t.id)).landIfAboard t).remove t.id := by
      unfold landIfAboard
      split <;> simp_all [World.remove, World.note, World.land]
    rw [swap]
    exact opened.leave waiting
  unfold parting
  cases place : t.place with
  | flightTurn seen =>
    exact ⟨fun id => task?_remove w t.id id, rfl, rfl, rfl, opened.nextId⟩
  | startupTurn =>
    refine elsewhere fun waits => ?_
    exact orderly.ashore has (by rw [place, Place.isFlying]) (Lock.mem_line.mpr (.inr waits))
  | asking a => exact elsewhere (orderly.not_waiting has place)

theorem drop_moves (orderly : w.Orderly) (id : Nat) : Moves w (w.drop id) id := by
  unfold World.drop
  split
  next t found =>
    obtain ⟨rfl, has⟩ := has_of_task? found
    have gone := orderly.dropped has
    by_cases observes : t.call = .observe <;> simp only [observes, if_true, if_false]
    · exact .drops has (gone.setStartupLock _)
    · exact .drops has gone
  next => exact .idle rfl

theorem step_moves (orderly : w.Orderly) (action : Action) :
    Moves w (w.step action) (w.caller action) := by
  cases action with
  | start call publishes => exact start_moves orderly call publishes
  | answer id method reply => exact answer_moves orderly id method reply
  | wake id => exact wake_moves orderly id
  | drop id => exact drop_moves orderly id

end Inversion

end World

end WalletSession
