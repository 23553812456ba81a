import WalletSession.Proofs.World.Register
import WalletSession.Proofs.World.Waiting

/-! What an action does to startup and to what is published. Only the end of a call publishes, and only
an observer runs startup, under its lock; `Bears` has a constructor for each way in which an action can
bear on either. -/
namespace WalletSession

/-- The call publishes the snapshot when it is over. -/
def Task.shows (t : Task) : Bool := t.publishes || t.call == .observe

namespace World

variable {σ : Type}

/-- Startup and what is published are left alone. -/
structure Aside (w w' : World σ) : Prop where
  startup : w'.startup = w.startup
  published : w'.published = w.published
  version : w'.version = w.version
  log : w.log <+: w'.log

/-- How a call fares in a stretch of work: it stays, past its turn at startup, or is over. -/
inductive Fares (w w' : World σ) (t : Task) : Prop
  | stays {p : Place} (has : w'.Has { t with place := p }) (past : p ≠ .startupTurn)
      (aside : Aside w w') : Fares w w' t
  | ends (gone : w'.task? t.id = none)
      (startup : w'.startup = if t.call = .observe then { isOver := true } else w.startup)
      (published : w'.published = if t.shows then w'.snapshot else w.published)
      (version : w'.version = if w'.published = w.published then w.version else w.version + 1)
      (initialized : t.call = .observe → w'.session.state.initialized = true)
      (told : t.call = .observe → ∃ notes, w'.log = w.log ++ notes ∧
        .returned t.id (.ok (.snapshot w'.snapshot)) ∈ notes) : Fares w w' t

/-- The call that an action moves: a new one, or one that is under way. -/
inductive Picks (w : World σ) : Action → Task → Prop
  | starts {t : Task} (number : t.id = w.nextId) (place : t.place = .startupTurn) :
      Picks w (.start t.call t.publishes) t
  | goesOn {action : Action} {t : Task} (has : w.Has t) (caller : w.caller action = t.id) :
      Picks w action t

/-- How a call comes to work, and the lock of startup that it works under: the first observer takes
it, another one inherits it, and whoever goes on or is no observer leaves it as it is. -/
inductive Enters (w : World σ) (t : Task) : Lock → Prop
  | first (number : t.id = w.nextId) (only : t.call = .observe) (pending : w.startup.isOver = false)
      (free : w.startup.lock.isFree = true) : Enters w t (w.startup.lock.arrive t.id)
  | next (has : w.Has t) (place : t.place = .startupTurn) (pending : w.startup.isOver = false)
      (holds : w.startup.lock.holder = some t.id) : Enters w t w.startup.lock
  | goesOn (past : t.call = .observe → w.Has t ∧ t.place ≠ .startupTurn) :
      Enters w t w.startup.lock

/-- How an action bears on startup and on what is published. -/
inductive Bears (w w' : World σ) (action : Action) : Prop
  | idle (same : w' = w)
  | works {t : Task} {lock : Lock} (picks : Picks w action t) (enters : Enters w t lock)
      (fares : Fares (w.setStartupLock lock) w' t)
  | waits {t : Task} (picks : Picks w action t) (number : t.id = w.nextId)
      (place : t.place = .startupTurn) (only : t.call = .observe)
      (pending : w.startup.isOver = false) (taken : w.startup.lock.isFree = false) (has : w'.Has t)
      (aside : Aside (w.setStartupLock (w.startup.lock.arrive t.id)) w')
      (session : w'.session = w.session)
  | sees {t : Task} (picks : Picks w action t) (place : t.place = .startupTurn)
      (ended : w.startup.isOver = true) (gone : w'.task? t.id = none) (aside : Aside w w')
      (session : w'.session = w.session)
  | drops {t : Task} (has : w.Has t) (dropped : action = .drop t.id) (gone : w'.task? t.id = none)
      (aside : Aside (if t.call = .observe then w.setStartupLock (w.startup.lock.leave t.id) else w) w')
      (session : w'.session = w.session) (log : w'.log = w.log ++ .dropped t.id :: parting w t)

/-- Publishing what is published already changes nothing. -/
theorem publish_eq (w : World σ) : w.publish =
    { w with
      published := w.snapshot
      version := if w.snapshot = w.published then w.version else w.version + 1 } := by
  unfold publish
  split
  next same => rw [if_pos same.symm, ← same]
  next changed => rw [if_neg (Ne.symm changed)]

section Aside

variable {w w₁ w' : World σ} {t : Task}

theorem Aside.trans (first : Aside w w₁) (second : Aside w₁ w') : Aside w w' where
  startup := second.startup.trans first.startup
  published := second.published.trans first.published
  version := second.version.trans first.version
  log := first.log.trans second.log

theorem aside_note (w : World σ) (n : Note) : Aside w (w.note n) :=
  ⟨rfl, rfl, rfl, prefix_note ..⟩

theorem aside_place (w : World σ) (t : Task) (p : Place) : Aside w (w.place t p) := by
  refine ⟨?_, ?_, ?_, prefix_place ..⟩ <;> unfold World.place <;> split <;> rfl

theorem aside_after (w : World σ) (id : Nat) (s : Session σ) : Aside w (w.after id s) :=
  ⟨rfl, rfl, rfl, List.prefix_append ..⟩

theorem aside_remove (w : World σ) (id : Nat) : Aside w (w.remove id) :=
  ⟨rfl, rfl, rfl, List.prefix_rfl⟩

theorem aside_landIfAboard (w : World σ) (t : Task) : Aside w (w.landIfAboard t) := by
  refine ⟨?_, ?_, ?_, prefix_leave w t⟩ <;> unfold landIfAboard <;> split <;> rfl

theorem aside_setFlightLock (w : World σ) (lock : Lock) : Aside w (w.setFlightLock lock) :=
  ⟨rfl, rfl, rfl, List.prefix_rfl⟩

/-- What was left alone before does not count. -/
theorem Fares.since (fares : Fares w₁ w' t) (aside : Aside w w₁) : Fares w w' t := by
  cases fares with
  | stays has past later => exact .stays has past (aside.trans later)
  | ends gone startup published version initialized told =>
    rw [aside.startup] at startup
    rw [aside.published] at published version
    rw [aside.version] at version
    refine .ends gone startup published version initialized fun only => ?_
    obtain ⟨earlier, before⟩ := aside.log
    obtain ⟨notes, log, told⟩ := told only
    exact ⟨earlier ++ notes, by rw [log, ← before, List.append_assoc],
      List.mem_append_right _ told⟩

end Aside

section Stretch

variable {w : World σ} {t : Task}

/-- A call that is gone and did not run startup through the binding has only to publish. -/
theorem publish_fares (gone : w.task? t.id = none) (other : t.call ≠ .observe) (n : Note) :
    Fares w ((if t.publishes then w.publish else w).note n) t := by
  have unseen : t.shows = t.publishes := by simp [Task.shows, other]
  rw [publish_eq]
  cases publishes : t.publishes with
  | true =>
    refine .ends gone (if_neg other).symm ?_ rfl (absurd · other) (absurd · other)
    rw [unseen, publishes]
    rfl
  | false =>
    refine .ends gone (if_neg other).symm ?_ (if_pos rfl).symm (absurd · other) (absurd · other)
    rw [unseen, publishes]
    rfl

theorem conclude_fares (w : World σ) (t : Task) (result : Except AuthError Value) :
    Fares w (w.conclude t result) t := by
  have absent : ((w.landIfAboard t).remove t.id).task? t.id = none := by simp [task?_remove]
  have left := (aside_landIfAboard w t).trans (aside_remove _ t.id)
  unfold conclude
  generalize (w.landIfAboard t).remove t.id = gone at absent left
  refine Fares.since ?_ left
  have begun (connected : Bool) : Aside gone (gone.endInit connected) :=
    ⟨rfl, rfl, rfl, List.prefix_rfl⟩
  cases only : t.call with
  | observe =>
    have shows : t.shows = true := by simp [Task.shows, only]
    simp only [publish_eq]
    refine (Fares.ends ?_ ?_ ?_ ?_ ?_ ?_).since (begun (startupSucceeded result))
    · exact absent
    · exact (if_pos only).symm
    · rw [shows]
      rfl
    · rfl
    · exact fun _ => rfl
    · exact fun _ => ⟨[_], rfl, List.mem_singleton.mpr rfl⟩
  | init =>
    have fares := publish_fares (w := gone.endInit (startupSucceeded result)) absent (by simp [only])
    exact (fares _).since (begun _)
  | _ => exact publish_fares absent (by simp [only]) _

theorem place_fares (knows : w.Knows t) {p : Place} (past : p ≠ .startupTurn) :
    Fares w (w.place t p) t :=
  .stays ((task?_place knows p _).trans (if_pos rfl)) past (aside_place w t p)

theorem settle_fares (knows : w.Knows t) (result : Except AuthError Stop) :
    Fares w (w.settle t result) t := by
  match result with
  | .ok (.wait a) =>
    have there := (task?_place knows (.asking a) t.id).trans (if_pos rfl)
    exact .stays (p := .asking a) there nofun ((aside_place w t _).trans (aside_note ..))
  | .ok (.finish v) => exact conclude_fares w t (.ok v)
  | .error e => exact conclude_fares w t (.error e)

variable [TokenStore σ]

theorem embark_fares (knows : w.Knows t) : Fares w (w.embark t) t := by
  have noted := aside_note w (.boarded t.id)
  unfold embark
  rw [run_eq]
  exact (settle_fares (w := (w.note _).after t.id _) knows _).since
    (noted.trans (aside_after _ t.id _))

theorem board_fares (knows : w.Knows t) : Fares w (w.board t) t := by
  let arrived := w.setFlightLock (w.flight.lock.arrive t.id)
  have aside : Aside w arrived := aside_setFlightLock ..
  have knows : arrived.Knows t := knows
  unfold board
  split
  · exact (embark_fares knows).since aside
  · exact (place_fares (p := .flightTurn _) knows nofun).since aside

theorem takeTurn_fares (knows : w.Knows t) (seen : Nat) : Fares w (w.takeTurn t seen) t := by
  unfold takeTurn
  split
  · exact (conclude_fares _ t _).since (aside_setFlightLock ..)
  · exact embark_fares knows

theorem proceed_fares (knows : w.Knows t) (work : Act σ Move) : Fares w (w.proceed t work) t := by
  have ran := aside_after w t.id (w.session.perform work).2
  have knows : (w.after t.id (w.session.perform work).2).Knows t := knows
  unfold proceed
  rw [run_eq]
  split
  next same => exact (Prod.mk.inj same).2 ▸ (board_fares knows).since ran
  next same => exact (Prod.mk.inj same).2 ▸ (settle_fares knows _).since ran
  next same => exact (Prod.mk.inj same).2 ▸ (settle_fares knows _).since ran

end Stretch

section Inversion

variable {w : World σ} {t u : Task} {action : Action}

theorem Has.ne_of_gone {id : Nat} (has : w.Has u) (gone : w.task? id = none) : u.id ≠ id := by
  rintro rfl
  cases gone.symm.trans has

theorem Picks.caller (picks : Picks w action t) : w.caller action = t.id := by
  cases picks with
  | starts number => exact number.symm
  | goesOn _ caller => exact caller

theorem Picks.known (picks : Picks w action t) : t.id = w.nextId ∨ w.Has t := by
  cases picks with
  | starts number => exact .inl number
  | goesOn has => exact .inr has

theorem place_session (w : World σ) (t : Task) (p : Place) : (w.place t p).session = w.session := by
  unfold World.place
  split <;> rfl

theorem endObserve_aside (w : World σ) (t : Task) :
    (w.endObserve t).task? t.id = none ∧ Aside w (w.endObserve t) := by
  constructor
  · exact (task?_remove w t.id t.id).trans (if_pos rfl)
  · exact ⟨rfl, rfl, rfl, prefix_note ..⟩

/-- Whoever is dropped gives up its place in the line for startup as well. -/
theorem drops_bears {left : World σ} (has : w.Has t) (aside : Aside w left)
    (moved : Moved w t w.flight.lock none w.session (.dropped t.id :: parting w t) left) :
    Bears w (if t.call = .observe then left.setStartupLock (left.startup.lock.leave t.id) else left)
      (.drop t.id) := by
  have gone := (moved.tasks t.id).trans (if_pos rfl)
  by_cases observes : t.call = .observe
  · rw [if_pos observes]
    refine .drops has rfl gone ?_ moved.session moved.log
    rw [if_pos observes]
    exact { aside with startup := by rw [setStartupLock, setStartupLock, aside.startup] }
  · rw [if_neg observes]
    refine .drops has rfl gone ?_ moved.session moved.log
    rwa [if_neg observes]

theorem drop_bears (orderly : w.Orderly) (id : Nat) : Bears w (w.drop id) (.drop id) := by
  unfold drop
  split
  next t found =>
    obtain ⟨rfl, has⟩ := has_of_task? found
    refine drops_bears has ?_ (orderly.dropped has)
    refine ((aside_remove w t.id).trans (aside_note _ (.dropped t.id))).trans ?_
    split
    · exact aside_setFlightLock ..
    · exact aside_landIfAboard ..
  next => exact .idle rfl

variable [TokenStore σ]

theorem start_bears (orderly : w.Orderly) (call : Call) (publishes : Bool) :
    Bears w (w.start call publishes) (.start call publishes) := by
  let t : Task := { id := w.nextId, call, publishes, place := .startupTurn }
  let begun := { w with nextId := w.nextId + 1 }.note (.started w.nextId call)
  have picks : Picks w (.start call publishes) t := .starts (t := t) rfl rfl
  have aside : Aside w begun := ⟨rfl, rfl, rfl, prefix_note { w with nextId := w.nextId + 1 } _⟩
  have knows : begun.Knows t := .inr (orderly.fresh (t := t) rfl)
  unfold start
  split
  next =>
    change Bears w (begun.observe t) (.start t.call t.publishes)
    let arrived := begun.setStartupLock (w.startup.lock.arrive t.id)
    have lined : Aside (w.setStartupLock (w.startup.lock.arrive t.id)) arrived :=
      { aside with startup := rfl }
    have knows : arrived.Knows t := knows
    unfold observe
    split
    next ended =>
      obtain ⟨gone, left⟩ := endObserve_aside begun t
      exact .sees picks rfl ended gone (aside.trans left) rfl
    next pending =>
      have pending : w.startup.isOver = false := Bool.eq_false_iff.mpr pending
      split
      next free =>
        exact .works picks (.first rfl rfl pending free) ((proceed_fares knows _).since lined)
      next taken =>
        have has := (task?_place knows .startupTurn t.id).trans (if_pos rfl)
        exact .waits picks rfl rfl rfl pending (Bool.eq_false_iff.mpr taken) has
          (lined.trans (aside_place arrived t _)) (place_session ..)
  next other =>
    exact .works picks (.goesOn (absurd · other)) ((proceed_fares knows _).since aside)

theorem answer_bears (id : Nat) (method : Method) (reply : Except AuthError method.Reply) :
    Bears w (w.answer id method reply) (.answer id method reply) := by
  unfold answer
  split
  next t found =>
    obtain ⟨rfl, has⟩ := has_of_task? found
    split
    next a place =>
      split
      next same =>
        subst same
        have fares := proceed_fares (w := w.note (.answered t.id a.method reply)) (t := t) (.inl has)
          (Session.resume t.call a reply)
        exact .works (.goesOn has rfl) (.goesOn fun _ => ⟨has, by simp [place]⟩)
          (fares.since (aside_note ..))
      next => exact .idle rfl
    next => exact .idle rfl
  next => exact .idle rfl

theorem wake_bears (id : Nat) : Bears w (w.wake id) (.wake id) := by
  unfold wake
  split
  next t found =>
    obtain ⟨rfl, has⟩ := has_of_task? found
    have picks : Picks w (.wake t.id) t := .goesOn has rfl
    split
    · exact .idle rfl
    next awake =>
      split
      next place =>
        split
        next ended =>
          obtain ⟨gone, aside⟩ := endObserve_aside w t
          exact .sees picks place ended gone aside rfl
        next pending =>
          have holds : w.startup.lock.holder = some t.id := by
            simpa [isAwake, place, pending] using awake
          exact .works picks (.next has place (Bool.eq_false_iff.mpr pending) holds)
            (proceed_fares (.inl has) _)
      next seen place =>
        exact .works picks (.goesOn fun _ => ⟨has, by simp [place]⟩) (takeTurn_fares (.inl has) seen)
      next => exact .idle rfl
  next => exact .idle rfl

theorem step_bears (orderly : w.Orderly) (action : Action) : Bears w (w.step action) action := by
  cases action with
  | start call publishes => exact start_bears orderly call publishes
  | answer id method reply => exact answer_bears id method reply
  | wake id => exact wake_bears id
  | drop id => exact drop_bears orderly id

/-- An action moves no other call. -/
theorem Orderly.has_other (orderly : w.Orderly) (action : Action) (other : u.id ≠ w.caller action) :
    (w.step action).Has u ↔ w.Has u := by
  rcases (step_moves orderly action).respects orderly with same | ⟨t, _, _, _, _, caller, moved, _⟩
  · rw [same]
  · exact moved.has_other (caller ▸ other)

/-- Whatever is noted in a step is noted of the call that moves. -/
theorem Orderly.noted_of (orderly : w.Orderly) {action : Action} {notes : List Note}
    (log : (w.step action).log = w.log ++ notes) {n : Note} (member : n ∈ notes) :
    n.id = w.caller action := by
  rcases (step_moves orderly action).respects orderly with same | ⟨t, _, _, _, _, caller, moved, mine⟩
  · obtain rfl : notes = [] := by simpa [same] using log
    contradiction
  · obtain rfl := List.append_cancel_left (log.symm.trans moved.log)
    exact (mine.mine member).trans caller

theorem Picks.listed (picks : Picks w action t) (orderly : w.Orderly) (registered : w.Registered) :
    .started t.id t.call ∈ (w.step action).log := by
  cases picks with
  | starts number => exact number ▸ started_of_start ..
  | goesOn has => exact (orderly.log_steps [action]).subset (registered.started has)

end Inversion

section Run

variable [TokenStore σ] {w : World σ} {actions : List Action} {action : Action} {m n : Nat}

/-- A run after so many of its actions. -/
def during (w : World σ) (actions : List Action) (n : Nat) : World σ := w.steps (actions.take n)

theorem Reachable.during (reachable : w.Reachable) (actions : List Action) (n : Nat) :
    (w.during actions n).Reachable := reachable.steps (actions.take n)

theorem during_succ (next : actions[n]? = some action) :
    w.during actions (n + 1) = (w.during actions n).step action := by
  unfold during
  rw [List.take_add_one, next, Option.toList_some, steps_append, steps_singleton]

theorem during_cases (w : World σ) (actions : List Action) (n : Nat) :
    (∃ action, actions[n]? = some action ∧
      w.during actions (n + 1) = (w.during actions n).step action) ∨
    w.during actions (n + 1) = w.during actions n := by
  cases next : actions[n]? with
  | some action => exact .inl ⟨action, rfl, during_succ next⟩
  | none =>
    right
    unfold during
    rw [List.take_add_one, next, Option.toList_none, List.append_nil]

/-- What every step keeps holds for the rest of a run. -/
theorem during_mono {motive : World σ → Prop}
    (step : ∀ w action, motive w → motive (w.step action)) (le : m ≤ n)
    (before : motive (w.during actions m)) : motive (w.during actions n) := by
  induction le with
  | refl => exact before
  | @step n _ ih =>
    rcases during_cases w actions n with ⟨action, _, next⟩ | same
    · exact next ▸ step _ action ih
    · exact same ▸ ih

end Run

end World

end WalletSession
