import WalletSession.Proofs.World.Binding
import WalletSession.Proofs.World.Returns

/-! Startup through the binding. One observer at a time is in the middle of it, and if that one is
dropped the work goes to the next in line; the first that comes to its end ends it for all, and the
session is initialized from then on. -/
namespace WalletSession

namespace Session

variable {σ : Type} [TokenStore σ] {s s' : Session σ} {call : Call} {occasion : Occasion}
  {result : Except AuthError Move}

theorem Turn.initialized (turn : Turn call s occasion result s') :
    s'.state.initialized = s.state.initialized := by
  cases turn <;> rfl

omit [TokenStore σ] in
theorem concluded_initialized (before : s.state.initialized = true)
    (result : Except AuthError Value) : (s.concluded call result).state.initialized = true := by
  unfold concluded
  split
  · rfl
  · exact before

end Session

namespace World

variable {σ : Type}

/-- The call is in the middle of startup. -/
def Initializes (w : World σ) (id : Nat) : Prop :=
  ∃ t, w.Has t ∧ t.id = id ∧ t.call.isStartup = true ∧ t.place ≠ .startupTurn

section Events

variable [TokenStore σ] (w : World σ) (action : Action) (id : Nat)

/-- The call returns in this step. -/
def Tells (result : Except AuthError Value) : Prop :=
  ∃ notes, (w.step action).log = w.log ++ notes ∧ .returned id result ∈ notes

/-- A call comes to the end of startup in this step: it returns, and was in the middle of startup or
could not return without all of it. -/
def Completes : Prop :=
  (w.Initializes id ∨ w.startup.isOver = false) ∧
    ∃ call result, call.isStartup = true ∧ .started id call ∈ (w.step action).log ∧
      w.Tells action id result

/-- A call begins startup in this step, and may complete it at once. -/
def Begins : Prop :=
  ¬w.Initializes id ∧ ((w.step action).Initializes id ∨ w.Completes action id)

end Events

/-- The call has startup for itself, under its lock. -/
structure Conducts (w : World σ) (t : Task) (lock : Lock) : Prop where
  orderly : lock.Orderly
  holds : lock.holder = some t.id
  line {id : Nat} (other : id ≠ t.id) (lined : id ∈ lock.line) : id ∈ w.startup.lock.line
  pending : w.startup.isOver = false
  alone {id : Nat} (initializes : w.Initializes id) : id = t.id

/-- Observers stand in line for startup, its holder alone may be in the middle of it, and nobody is
when it is over. -/
structure Ushered (w : World σ) : Prop where
  lock : w.startup.lock.Orderly
  line {id : Nat} (lined : id ∈ w.startup.lock.line) : ∃ t, t.id = id ∧ w.Has t ∧ t.call = .observe
  holds {id : Nat} (initializes : w.Initializes id) :
    w.startup.isOver = false ∧ w.startup.lock.holder = some id
  bound {t : Task} (has : w.Has t) : t.call ≠ .init
  ended (isOver : w.startup.isOver = true) :
    w.startup.lock = {} ∧ w.session.state.initialized = true

section Ushered

variable {w w' : World σ} {t u : Task} {lock : Lock} {action : Action}

/-- A new call is not in line yet. -/
theorem Ushered.absent (ushered : w.Ushered) (orderly : w.Orderly) (number : t.id = w.nextId) :
    t.id ∉ w.startup.lock.line := by
  intro lined
  obtain ⟨u, same, has, _⟩ := ushered.line lined
  have := orderly.number has
  omega

theorem Enters.conducts (enters : Enters w t lock) (ushered : w.Ushered) (orderly : w.Orderly)
    (only : t.call = .observe) : Conducts w t lock := by
  have startup : t.call.isStartup = true := by rw [only, Call.isStartup]
  cases enters with
  | first number _ pending free =>
    refine ⟨ushered.lock.arrive (ushered.absent orderly number), by rw [Lock.arrive_free free], ?_,
      pending, ?_⟩
    · intro id other lined
      rw [ushered.lock.line_arrive] at lined
      simpa [other] using lined
    · intro id initializes
      simp [Lock.isFree, (ushered.holds initializes).2] at free
  | next has place pending holds =>
    refine ⟨ushered.lock, holds, fun _ => id, pending, fun initializes => ?_⟩
    exact Option.some.inj ((ushered.holds initializes).2.symm.trans holds)
  | goesOn past =>
    obtain ⟨has, past⟩ := past only
    obtain ⟨pending, holds⟩ := ushered.holds ⟨t, has, rfl, startup, past⟩
    refine ⟨ushered.lock, holds, fun _ => id, pending, fun initializes => ?_⟩
    exact Option.some.inj ((ushered.holds initializes).2.symm.trans holds)

theorem Enters.apart (enters : Enters w t lock) (other : t.call ≠ .observe) :
    lock = w.startup.lock := by
  cases enters with
  | first _ only => contradiction
  | next | goesOn => rfl

/-- A move respects the line if its own call keeps to it and nobody else is touched. -/
theorem Ushered.moved {id : Nat} (ushered : w.Ushered)
    (others : ∀ u, u.id ≠ id → (w'.Has u ↔ w.Has u))
    (own : ∀ u, w'.Has u → u.id = id → u.call ≠ .init ∧ (u.call.isStartup = true →
      u.place ≠ .startupTurn → w'.startup.isOver = false ∧ w'.startup.lock.holder = some id))
    (lock : w'.startup.lock.Orderly)
    (line : ∀ other ∈ w'.startup.lock.line, other ≠ id → other ∈ w.startup.lock.line)
    (mine : id ∈ w'.startup.lock.line → ∃ t, t.id = id ∧ w'.Has t ∧ t.call = .observe)
    (holds : ∀ other ≠ id, w.Initializes other →
      w'.startup.isOver = false ∧ w'.startup.lock.holder = some other)
    (ended : w'.startup.isOver = true →
      w'.startup.lock = {} ∧ w'.session.state.initialized = true) : w'.Ushered where
  lock := lock
  line {other} lined := by
    by_cases same : other = id
    · subst same
      exact mine lined
    · obtain ⟨u, rfl, has, only⟩ := ushered.line (line other lined same)
      exact ⟨u, rfl, (others u same).mpr has, only⟩
  holds {other} initializes := by
    obtain ⟨u, has, rfl, startup, past⟩ := initializes
    by_cases same : u.id = id
    · rw [same]
      exact (own u has same).2 startup past
    · exact holds u.id same ⟨u, (others u same).mp has, rfl, startup, past⟩
  bound {u} has := by
    by_cases same : u.id = id
    · exact (own u has same).1
    · exact ushered.bound ((others u same).mp has)
  ended := ended

/-- The call that has startup for itself goes on with it, or ends it for all. -/
theorem Ushered.conducted (ushered : w.Ushered) (others : ∀ u, u.id ≠ t.id → (w'.Has u ↔ w.Has u))
    (conducts : Conducts w t lock) (only : t.call = .observe)
    (fares : Fares (w.setStartupLock lock) w' t) : w'.Ushered := by
  have alone (id : Nat) (other : id ≠ t.id) : ¬w.Initializes id :=
    fun initializes => other (conducts.alone initializes)
  cases fares with
  | @stays p has past aside =>
    have startup : w'.startup = { w.startup with lock } := aside.startup
    apply ushered.moved others <;> simp only [startup]
    · intro u has' same
      obtain rfl := has'.unique has same
      exact ⟨by simp [only], fun _ _ => ⟨conducts.pending, conducts.holds⟩⟩
    · exact conducts.orderly
    · exact fun id lined other => conducts.line other lined
    · exact fun _ => ⟨{ t with place := p }, rfl, has, only⟩
    · exact fun id other initializes => absurd initializes (alone id other)
    · simp [conducts.pending]
  | ends gone startup _ _ initialized =>
    rw [if_pos only] at startup
    apply ushered.moved others <;> simp only [startup]
    · exact fun u has same => absurd same (has.ne_of_gone gone)
    · exact ⟨fun _ => rfl, List.nodup_nil⟩
    · simp [Lock.line]
    · simp [Lock.line]
    · exact fun id other initializes => absurd initializes (alone id other)
    · exact fun _ => ⟨trivial, initialized only⟩

/-- Whoever is no observer leaves the line as it is. -/
theorem Ushered.bystands (ushered : w.Ushered) (others : ∀ u, u.id ≠ t.id → (w'.Has u ↔ w.Has u))
    (other : t.call.isStartup = false) (startup : w'.startup = w.startup)
    (known : ∀ u, w.Has u → u.id = t.id → u = t)
    (own : ∀ u, w'.Has u → u.id = t.id → u.call = t.call)
    (kept : w.session.state.initialized = true → w'.session.state.initialized = true) :
    w'.Ushered := by
  apply ushered.moved others <;> simp only [startup]
  · intro u has same
    rw [own u has same, other]
    refine ⟨?_, nofun⟩
    rintro only
    simp [only, Call.isStartup] at other
  · exact ushered.lock
  · exact fun id lined _ => lined
  · intro lined
    obtain ⟨u, same, has, only⟩ := ushered.line lined
    rw [← known u has same, only] at other
    contradiction
  · exact fun id _ initializes => ushered.holds initializes
  · exact fun isOver => (ushered.ended isOver).imp_right kept

theorem Picks.other (picks : Picks w action t) (ushered : w.Ushered)
    (bound : ∀ publishes, action ≠ .start .init publishes) (other : t.call ≠ .observe) :
    t.call.isStartup = false := by
  have notInit : t.call ≠ .init := by
    cases picks with
    | starts => exact fun only => bound _ (by rw [only])
    | goesOn has => exact ushered.bound has
  cases call : t.call <;> first | rfl | simp_all

variable [TokenStore σ]

theorem Moves.initialized {id : Nat} (moves : Moves w w' id)
    (before : w.session.state.initialized = true) : w'.session.state.initialized = true := by
  cases moves with
  | idle same => rwa [same]
  | @turns t occasion lock notes result s comes turn stops moved =>
    rw [moved.session]
    have kept : s.rested.state.initialized = true := turn.initialized.trans before
    unfold settled
    split
    · exact Session.concluded_initialized kept _
    · exact Session.concluded_initialized kept _
    · exact kept
  | shares _ _ _ _ moved =>
    rw [moved.session]
    exact Session.concluded_initialized before _
  | queues _ _ moved | waits _ _ moved | observes _ moved | drops _ moved => rwa [moved.session]

theorem Ushered.step (ushered : w.Ushered) (orderly : w.Orderly)
    (bound : ∀ publishes, action ≠ .start .init publishes) : (w.step action).Ushered := by
  have others (u : Task) (other : u.id ≠ w.caller action) : (w.step action).Has u ↔ w.Has u :=
    orderly.has_other action other
  have kept := (step_moves orderly action).initialized
  cases step_bears orderly action with
  | idle same => rwa [same]
  | @works t lock picks enters fares =>
    rw [picks.caller] at others
    by_cases only : t.call = .observe
    · exact ushered.conducted others (enters.conducts ushered orderly only) only fares
    · obtain rfl := enters.apart only
      have known (u : Task) (has : w.Has u) (same : u.id = t.id) : u = t :=
        orderly.mover picks.known has same
      have bystands := ushered.bystands others (picks.other ushered bound only)
      cases fares with
      | stays has past aside =>
        refine bystands aside.startup known (fun u has' same => ?_) kept
        rw [has'.unique has same]
      | ends gone startup =>
        rw [if_neg only] at startup
        exact bystands startup known (fun u has same => absurd same (has.ne_of_gone gone)) kept
  | @waits t picks number place only pending taken has aside session =>
    rw [picks.caller] at others
    have startup : (w.step action).startup = { w.startup with lock := w.startup.lock.arrive t.id } :=
      aside.startup
    apply ushered.moved others <;> simp only [startup]
    · intro u has' same
      obtain rfl := has'.unique has same
      exact ⟨by simp [only], fun _ past => absurd place past⟩
    · exact ushered.lock.arrive (ushered.absent orderly number)
    · intro id lined other
      rw [ushered.lock.line_arrive] at lined
      simpa [other] using lined
    · exact fun _ => ⟨t, rfl, has, only⟩
    · intro id _ initializes
      rw [Lock.arrive_taken taken]
      exact ushered.holds initializes
    · simp [pending]
  | @sees t picks place ended gone aside session =>
    rw [picks.caller] at others
    apply ushered.moved others <;> simp only [aside.startup]
    · exact fun u has same => absurd same (has.ne_of_gone gone)
    · exact ushered.lock
    · exact fun id lined _ => lined
    · simp [(ushered.ended ended).1, Lock.line]
    · exact fun id _ initializes => ushered.holds initializes
    · exact fun isOver => (ushered.ended isOver).imp_right kept
  | @drops t has dropped gone aside session log =>
    have caller : w.caller action = t.id := by rw [dropped, World.caller]
    rw [caller] at others
    have away (u : Task) (has : (w.step action).Has u) : u.id ≠ t.id := has.ne_of_gone gone
    by_cases only : t.call = .observe
    · rw [if_pos only] at aside
      have startup : (w.step action).startup = { w.startup with lock := w.startup.lock.leave t.id } :=
        aside.startup
      have left : (w.startup.lock.leave t.id).line = w.startup.lock.line.filter (· != t.id) :=
        ushered.lock.line_leave
      apply ushered.moved others <;> simp only [startup]
      · exact fun u has' same => absurd same (away u has')
      · exact ushered.lock.leave
      · exact fun id lined _ => List.mem_of_mem_filter (left ▸ lined)
      · simp [left]
      · intro id other initializes
        obtain ⟨pending, holds⟩ := ushered.holds initializes
        have kept : w.startup.lock.holder ≠ some t.id := by simp [holds, other]
        exact ⟨pending, by rw [Lock.leave, if_neg kept, holds]⟩
      · intro isOver
        obtain ⟨free, initialized⟩ := ushered.ended isOver
        exact ⟨by rw [free]; rfl, kept initialized⟩
    · rw [if_neg only] at aside
      have picks : Picks w action t := .goesOn has caller
      exact ushered.bystands others (picks.other ushered bound only) aside.startup
        (fun u had same => had.unique has same) (fun u has' same => absurd same (away u has')) kept

end Ushered

section Steps

variable [TokenStore σ] {w w' : World σ} {t : Task} {action : Action} {id : Nat}
  {result : Except AuthError Value} {notes : List Note}

theorem Returns.gone (returns : Returns w w' t notes result) : w'.task? t.id = none := by
  cases returns with
  | ends _ _ moved | shares _ _ _ _ moved | observes _ moved => exact moved.gone.2

/-- Whoever returns in a step has moved in it, and is gone. -/
theorem Tells.gone (tells : w.Tells action id result) (orderly : w.Orderly)
    (registered : w.Registered) :
    w.caller action = id ∧ (w.step action).task? id = none := by
  obtain ⟨notes, log, told⟩ := tells
  have moves := step_moves orderly action
  obtain ⟨call, started⟩ := (moves.registered orderly registered).known
    (log ▸ List.mem_append_right _ told)
  obtain ⟨t, rfl, rfl, returns⟩ := moves.returns orderly registered log told started
  exact ⟨(orderly.noted_of log told).symm, returns.gone⟩

theorem Completes.pending (completes : w.Completes action id) (ushered : w.Ushered) :
    w.startup.isOver = false :=
  completes.1.elim (fun initializes => (ushered.holds initializes).1) fun pending => pending

theorem Completes.caller (completes : w.Completes action id) (reachable : w.Reachable) :
    w.caller action = id := by
  obtain ⟨_, _, _, _, _, tells⟩ := completes
  exact (tells.gone reachable.orderly reachable.registered).1

/-- Whoever completes startup has had it for itself, and it is over for all. -/
theorem Completes.ends (completes : w.Completes action id) (ushered : w.Ushered)
    (reachable : w.Reachable) (bound : ∀ publishes, action ≠ .start .init publishes) :
    (∃ t lock, t.id = id ∧ Conducts w t lock) ∧ (w.step action).startup.isOver = true := by
  have orderly := reachable.orderly
  have registered := reachable.registered
  have pending := completes.pending ushered
  obtain ⟨_, call, result, startup, started, tells⟩ := completes
  obtain ⟨caller, gone⟩ := tells.gone orderly registered
  obtain ⟨notes, log, told⟩ := tells
  cases step_bears orderly action with
  | idle same =>
    obtain rfl : notes = [] := by simpa [same] using log
    contradiction
  | @works t lock picks enters fares =>
    obtain rfl : t.id = id := picks.caller.symm.trans caller
    obtain rfl : t.call = call :=
      (reachable.step action).registered.once (picks.listed orderly registered) started
    have only : t.call = .observe := by
      by_contra other
      simp [picks.other ushered bound other] at startup
    refine ⟨⟨t, lock, rfl, enters.conducts ushered orderly only⟩, ?_⟩
    cases fares with
    | stays has => exact absurd rfl (has.ne_of_gone gone)
    | ends _ ended => rw [ended, if_pos only]
  | @waits t picks _ _ _ _ _ has => exact absurd (picks.caller.symm.trans caller) (has.ne_of_gone gone)
  | sees _ _ ended => simp [pending] at ended
  | drops _ _ _ _ _ dropped =>
    obtain rfl := List.append_cancel_left (log.symm.trans dropped)
    unfold parting landing at told
    split at told <;> simp at told

/-- Whoever begins startup has it for itself from then on. -/
theorem Begins.conducts (begins : w.Begins action id) (ushered : w.Ushered)
    (reachable : w.Reachable) (bound : ∀ publishes, action ≠ .start .init publishes) :
    ∃ t lock, t.id = id ∧ Conducts w t lock := by
  have orderly := reachable.orderly
  obtain ⟨before, now | completes⟩ := begins
  · obtain ⟨u, has, rfl, startup, past⟩ := now
    have caller : u.id = w.caller action := by
      by_contra other
      exact before ⟨u, (orderly.has_other action other).mp has, rfl, startup, past⟩
    have away {t : Task} (picks : Picks w action t) (gone : (w.step action).task? t.id = none) : False :=
      has.ne_of_gone gone (caller.trans picks.caller)
    cases step_bears orderly action with
    | idle same => exact absurd ⟨u, same ▸ has, rfl, startup, past⟩ before
    | @works t lock picks enters fares =>
      cases fares with
      | stays there =>
        obtain rfl := has.unique there (caller.trans picks.caller)
        refine ⟨t, lock, rfl, enters.conducts ushered orderly ?_⟩
        by_contra other
        simp [picks.other ushered bound other] at startup
      | ends gone => exact (away picks gone).elim
    | waits picks _ place _ _ _ there =>
      obtain rfl := has.unique there (caller.trans picks.caller)
      exact absurd place past
    | sees picks _ _ gone => exact (away picks gone).elim
    | drops known dropped gone => exact (away (.goesOn known (by rw [dropped, World.caller])) gone).elim
  · exact (completes.ends ushered reachable bound).1

/-- Startup is over for good. -/
theorem Orderly.isOver_step (orderly : w.Orderly) (action : Action) (ended : w.startup.isOver = true) :
    (w.step action).startup.isOver = true := by
  cases step_bears orderly action with
  | idle same => rwa [same]
  | works _ _ fares =>
    cases fares with
    | stays _ _ aside => exact aside.startup ▸ ended
    | ends _ startup =>
      rw [startup]
      split
      · rfl
      · exact ended
  | waits _ _ _ _ _ _ _ aside | sees _ _ _ _ aside => exact aside.startup ▸ ended
  | drops _ _ _ aside =>
    rw [aside.startup]
    split <;> exact ended

/-- Startup is over because somebody has completed it. -/
theorem Reachable.completes_of_isOver (reachable : w.Reachable) (pending : w.startup.isOver = false)
    (ended : (w.step action).startup.isOver = true) : ∃ id, w.Completes action id := by
  have orderly := reachable.orderly
  cases step_bears orderly action with
  | idle same => simp [same, pending] at ended
  | @works t lock picks enters fares =>
    cases fares with
    | stays _ _ aside => simp [aside.startup, setStartupLock, pending] at ended
    | ends _ startup _ _ _ told =>
      by_cases only : t.call = .observe
      · have listed := picks.listed orderly reachable.registered
        exact ⟨t.id, .inr pending, t.call, _, by rw [only, Call.isStartup], listed, told only⟩
      · simp [startup, only, setStartupLock, pending] at ended
  | waits _ _ _ _ _ _ _ aside | sees _ _ _ _ aside =>
    simp [aside.startup, setStartupLock, pending] at ended
  | drops _ _ _ aside =>
    rw [aside.startup] at ended
    split at ended <;> simp [setStartupLock, pending] at ended

/-- An observer returns the snapshot of the moment. -/
theorem Tells.observed (tells : w.Tells action id result) (reachable : w.Reachable)
    (started : .started id .observe ∈ (w.step action).log) :
    result = .ok (.snapshot (w.step action).snapshot) := by
  obtain ⟨notes, log, told⟩ := tells
  have orderly := reachable.orderly
  obtain ⟨t, rfl, only, returns⟩ :=
    (step_moves orderly action).returns orderly reachable.registered log told started
  unfold World.snapshot
  cases returns with
  | ends _ _ moved | shares _ _ _ _ moved => rw [moved.session, only, Session.told]
  | observes _ moved => rw [moved.session]

end Steps

section Run

variable [TokenStore σ] {w : World σ} {actions : List Action} {m n id other : Nat}
  {action next : Action} {result : Except AuthError Value}

theorem Ushered.create (chain : ChainConfig) (hasWallet : Bool) (store : σ) :
    (ofSession (Session.create chain hasWallet store)).Ushered where
  lock := ⟨fun _ => rfl, List.nodup_nil⟩
  line := nofun
  holds := by
    rintro _ ⟨_, ⟨⟩, _⟩
  bound := nofun
  ended := nofun

omit [TokenStore σ] in
theorem Ushered.alone (ushered : w.Ushered) (one : w.Initializes id) (two : w.Initializes other) :
    id = other :=
  Option.some.inj ((ushered.holds one).2.symm.trans (ushered.holds two).2)

omit [TokenStore σ] in
/-- No step of a run through the binding starts `init` otherwise. -/
theorem unstarted_of_bound (bound : ∀ publishes, .start .init publishes ∉ actions)
    (taken : actions[n]? = some action) (publishes : Bool) : action ≠ .start .init publishes :=
  fun same => bound publishes (same ▸ List.mem_of_getElem? taken)

theorem Ushered.during (ushered : w.Ushered) (reachable : w.Reachable)
    (bound : ∀ publishes, .start .init publishes ∉ actions) (n : Nat) :
    (w.during actions n).Ushered := by
  induction n with
  | zero => exact ushered
  | succ n ih =>
    rcases during_cases w actions n with ⟨action, taken, stepped⟩ | same
    · rw [stepped]
      exact ih.step (reachable.during actions n).orderly (unstarted_of_bound bound taken)
    · rwa [same]

theorem Reachable.initialized_during (reachable : w.Reachable) (le : m ≤ n)
    (before : (w.during actions m).session.state.initialized = true) :
    (w.during actions n).session.state.initialized = true := by
  refine (during_mono (motive := fun w : World σ =>
    w.Orderly ∧ w.session.state.initialized = true) ?_ le
    ⟨(reachable.during actions m).orderly, before⟩).2
  exact fun w action both => ⟨both.1.step action, (step_moves both.1 action).initialized both.2⟩

/-- What has come to an end in a run has been completed by somebody. -/
theorem Reachable.completed_before (reachable : w.Reachable) (pending : w.startup.isOver = false)
    (ended : (w.during actions n).startup.isOver = true) :
    ∃ m < n, ∃ action id, actions[m]? = some action ∧ (w.during actions m).Completes action id := by
  induction n with
  | zero => exact absurd (pending.symm.trans ended) nofun
  | succ n ih =>
    by_cases before : (w.during actions n).startup.isOver = true
    · obtain ⟨m, earlier, completed⟩ := ih before
      exact ⟨m, Nat.lt_succ_of_lt earlier, completed⟩
    · rcases during_cases w actions n with ⟨action, taken, stepped⟩ | same
      · rw [stepped] at ended
        obtain ⟨id, completes⟩ :=
          (reachable.during actions n).completes_of_isOver (Bool.eq_false_iff.mpr before) ended
        exact ⟨n, Nat.lt_succ_self n, action, id, taken, completes⟩
      · rw [same] at ended
        exact absurd ended before

section Bound

variable (reachable : w.Reachable) (ushered : w.Ushered)
  (bound : ∀ publishes, .start .init publishes ∉ actions)

include reachable ushered bound

/-- Once it is completed, startup is over for the rest of the run. -/
theorem isOver_of_completed (taken : actions[m]? = some action)
    (completes : (w.during actions m).Completes action id) (later : m < n) :
    (w.during actions n).startup.isOver = true := by
  have ended : (w.during actions (m + 1)).startup.isOver = true := by
    rw [during_succ taken]
    exact (completes.ends (ushered.during reachable bound m) (reachable.during actions m)
      (unstarted_of_bound bound taken)).2
  refine (during_mono (motive := fun w : World σ => w.Orderly ∧ w.startup.isOver = true) ?_ later
    ⟨(reachable.during actions (m + 1)).orderly, ended⟩).2
  exact fun w action both => ⟨both.1.step action, both.1.isOver_step action both.2⟩

/-- What finds startup pending comes no later than its completion. -/
theorem not_after_completed (taken : actions[m]? = some action)
    (completes : (w.during actions m).Completes action id)
    (pending : (w.during actions n).startup.isOver = false) : n ≤ m := by
  by_contra later
  have ended := isOver_of_completed reachable ushered bound taken completes (Nat.lt_of_not_le later)
  simp [ended] at pending

theorem begins_first (taken : actions[n]? = some action)
    (begins : (w.during actions n).Begins action id) :
    (∀ other, ¬(w.during actions n).Initializes other) ∧
      ∀ m < n, ∀ earlier other, actions[m]? = some earlier →
        ¬(w.during actions m).Completes earlier other := by
  obtain ⟨t, lock, rfl, conducts⟩ := begins.conducts (ushered.during reachable bound n)
    (reachable.during actions n) (unstarted_of_bound bound taken)
  constructor
  · intro other initializes
    exact begins.1 (conducts.alone initializes ▸ initializes)
  · intro m earlier first other before completes
    have := not_after_completed reachable ushered bound before completes conducts.pending
    omega

theorem completes_once (one : actions[m]? = some action)
    (completes : (w.during actions m).Completes action id) (two : actions[n]? = some next)
    (again : (w.during actions n).Completes next other) : m = n ∧ id = other := by
  have pending (k : Nat) {action : Action} {id : Nat}
      (completes : (w.during actions k).Completes action id) :
      (w.during actions k).startup.isOver = false :=
    completes.pending (ushered.during reachable bound k)
  have le := not_after_completed reachable ushered bound one completes (pending n again)
  have ge := not_after_completed reachable ushered bound two again (pending m completes)
  obtain rfl : m = n := Nat.le_antisymm ge le
  obtain rfl := Option.some.inj (one.symm.trans two)
  have caller := completes.caller (reachable.during actions m)
  exact ⟨rfl, caller.symm.trans (again.caller (reachable.during actions m))⟩

/-- When an observer returns, startup is over. -/
theorem isOver_of_observed (taken : actions[n]? = some action)
    (started : .started id .observe ∈ ((w.during actions n).step action).log)
    (tells : (w.during actions n).Tells action id result) :
    ((w.during actions n).step action).startup.isOver = true := by
  have reachable' := reachable.during actions n
  by_cases before : (w.during actions n).startup.isOver = true
  · exact reachable'.orderly.isOver_step action before
  · have completes : (w.during actions n).Completes action id :=
      ⟨.inr (Bool.eq_false_iff.mpr before), .observe, result, rfl, started, tells⟩
    exact (completes.ends (ushered.during reachable bound n) reachable'
      (unstarted_of_bound bound taken)).2

end Bound

/-- Startup runs once. However observers come, wait and are dropped, among whatever other calls: no two
are in the middle of it at one time, nobody begins it after it was completed, it is completed once, and
no observer returns before that. -/
theorem startup_runs_once (chain : ChainConfig) (hasWallet : Bool) (store : σ)
    (actions : List Action) (bound : ∀ publishes, .start .init publishes ∉ actions) :
    let run (n : Nat) : World σ :=
      (ofSession (Session.create chain hasWallet store)).during actions n
    (∀ n id other, (run n).Initializes id → (run n).Initializes other → id = other) ∧
    (∀ n action id, actions[n]? = some action → (run n).Begins action id →
      (∀ other, ¬(run n).Initializes other) ∧
        ∀ m < n, ∀ earlier other, actions[m]? = some earlier → ¬(run m).Completes earlier other) ∧
    (∀ m n first second id other, actions[m]? = some first → actions[n]? = some second →
      (run m).Completes first id → (run n).Completes second other → m = n ∧ id = other) ∧
    (∀ n action id result, actions[n]? = some action → .started id .observe ∈ (run (n + 1)).log →
      (run n).Tells action id result →
      (∃ m ≤ n, ∃ earlier other, actions[m]? = some earlier ∧ (run m).Completes earlier other) ∧
        ∃ shown, result = .ok (.snapshot shown) ∧ shown.initialized = true) ∧
    (∀ n action id, actions[n]? = some action → (run n).Completes action id →
      (run (n + 1)).session.state.initialized = true) ∧
    ∀ m n, m ≤ n → (run m).session.state.initialized = true →
      (run n).session.state.initialized = true := by
  intro run
  have first : (ofSession (Session.create chain hasWallet store)).Reachable :=
    ⟨chain, hasWallet, store, [], rfl⟩
  have created := Ushered.create chain hasWallet store
  have ushered (n : Nat) : (run n).Ushered := created.during first bound n
  refine ⟨?_, ?_, ?_, ?_, ?_, ?_⟩
  · exact fun n id other => (ushered n).alone
  · exact fun n action id => begins_first first created bound
  · intro m n action next id other one two completes
    exact completes_once first created bound one completes two
  · intro n action id result taken started tells
    have stepped : run (n + 1) = (run n).step action := during_succ taken
    rw [stepped] at started
    have ended : (run (n + 1)).startup.isOver = true :=
      stepped ▸ isOver_of_observed first created bound taken started tells
    constructor
    · obtain ⟨m, earlier, completed⟩ := first.completed_before rfl ended
      exact ⟨m, Nat.le_of_lt_succ earlier, completed⟩
    · refine ⟨_, tells.observed (first.during actions n) started, ?_⟩
      exact stepped ▸ ((ushered (n + 1)).ended ended).2
  · intro n action id taken completes
    have ended := isOver_of_completed first created bound taken completes (Nat.lt_succ_self n)
    exact ((ushered (n + 1)).ended ended).2
  · exact fun m n le => first.initialized_during le

/-- The first observer is dropped in the middle of startup, the second completes it, and a third one
finds it over. -/
theorem startup_handed_on :
    let actions : List Action := [.start .observe false, .start .observe false, .drop 0, .wake 1,
      .answer 1 .isConnected (.ok false), .start .observe false]
    let run (n : Nat) : World MemoryStore :=
      (ofSession (Session.create ⟨"", "", ""⟩ true ⟨none⟩)).during actions n
    (∀ publishes, .start .init publishes ∉ actions) ∧ (run 1).Initializes 0 ∧
      (run 3).Begins (.wake 1) 1 ∧ (∀ other, ¬(run 3).Initializes other) ∧
      (run 4).Completes (.answer 1 .isConnected (.ok false)) 1 ∧
      (run 5).session.state.initialized = true ∧
      ∃ shown, (run 5).Tells (.start .observe false) 2 (.ok (.snapshot shown)) ∧
        shown.initialized = true := by
  intro actions run
  have bound (publishes : Bool) : .start .init publishes ∉ actions := by simp [actions]
  obtain ⟨alone, begins, once, returns, initialized, lasts⟩ :=
    startup_runs_once ⟨"", "", ""⟩ true (⟨none⟩ : MemoryStore) actions bound
  have opens : (run 1).Initializes 0 :=
    ⟨⟨0, .observe, false, .asking .startupWallet⟩, rfl, rfl, rfl, nofun⟩
  have goesOn : (run 4).Initializes 1 :=
    ⟨⟨1, .observe, false, .asking .startupWallet⟩, rfl, rfl, rfl, nofun⟩
  have waits : ¬(run 3).Initializes 1 := by
    rintro ⟨t, has, same, _, past⟩
    have waiting : (run 3).Has ⟨1, .observe, false, .startupTurn⟩ := rfl
    exact past (congrArg Task.place (has.unique waiting same))
  have inherits : (run 3).Begins (.wake 1) 1 := ⟨waits, .inl goesOn⟩
  have completes : (run 4).Completes (.answer 1 .isConnected (.ok false)) 1 :=
    ⟨.inl goesOn, .observe, _, rfl, List.mem_of_getElem? (i := 2) rfl,
      (run 5).log.drop 5, rfl, List.mem_of_getElem? (i := 1) rfl⟩
  have sees : (run 5).Tells (.start .observe false) 2 (.ok (.snapshot (run 6).snapshot)) :=
    ⟨(run 6).log.drop 7, rfl, List.mem_of_getElem? (i := 1) rfl⟩
  refine ⟨bound, opens, inherits, (begins 3 _ 1 rfl inherits).1, completes,
    initialized 4 _ 1 rfl completes, (run 6).snapshot, sees, ?_⟩
  obtain ⟨_, shown, same, ready⟩ := returns 5 _ 2 _ rfl (List.mem_of_getElem? (i := 7) rfl) sees
  cases same
  exact ready

end Run

end World

end WalletSession
