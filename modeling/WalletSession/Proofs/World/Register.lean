import Mathlib.Data.List.Induction
import WalletSession.Proofs.World.Orderly

/-! The history as a register of calls: whatever is noted is noted of a call that has started, and a
number stands for one call for ever. Nothing is ever taken out of it, so that a run can be cut where a
call of its history was started. -/
namespace WalletSession.World

variable {σ : Type} {w w' : World σ} {t : Task} {occasion : Occasion} {lock : Lock}
  {place : Option Place} {s : Session σ} {notes : List Note}

structure Registered (w : World σ) : Prop where
  started {t : Task} (has : w.Has t) : .started t.id t.call ∈ w.log
  once {id : Nat} {call other : Call} (one : .started id call ∈ w.log)
    (two : .started id other ∈ w.log) : call = other
  known {n : Note} (member : n ∈ w.log) : ∃ call, .started n.id call ∈ w.log

/-- Which call a number stands for. -/
def callOf (log : List Note) (id : Nat) : Option Call :=
  log.findSome? fun
    | .started other call => if other = id then some call else none
    | _ => none

theorem callOf_append {id : Nat} {call : Call} (known : callOf notes id = some call)
    (more : List Note) : callOf (notes ++ more) id = some call := by
  unfold callOf at known ⊢
  rw [List.findSome?_append, known]
  rfl

theorem Registered.callOf_eq {id : Nat} {call : Call} (registered : w.Registered)
    (started : .started id call ∈ w.log) : callOf w.log id = some call := by
  cases found : callOf w.log id with
  | none => simpa using List.findSome?_eq_none_iff.mp found _ started
  | some other =>
    obtain ⟨n, member, same⟩ := List.exists_of_findSome?_eq_some found
    split at same
    next number _ =>
      obtain ⟨rfl, rfl⟩ : number = id ∧ _ = other := by simpa using same
      exact congrArg some (registered.once member started)
    next => contradiction

theorem Registered.knows (registered : w.Registered) {n : Note} (member : n ∈ w.log) :
    ∃ call, callOf w.log n.id = some call :=
  (registered.known member).imp fun _ => registered.callOf_eq

/-- A new call says in its first note what it is, and no other note says so. -/
structure Registers (w : World σ) (t : Task) (notes : List Note) : Prop where
  known : t.id = w.nextId ∨ w.Has t
  fresh (number : t.id = w.nextId) : .started t.id t.call ∈ notes
  only {id : Nat} {call : Call} (member : .started id call ∈ notes) :
    t.id = w.nextId ∧ call = t.call

theorem Registers.of_unstarted (known : w.Has t) (orderly : w.Orderly)
    (unstarted : ∀ id call, .started id call ∉ notes) : Registers w t notes where
  known := .inr known
  fresh number := absurd number (Nat.ne_of_lt (orderly.number known))
  only member := absurd member (unstarted _ _)

theorem Registers.append (registers : Registers w t notes) {more : List Note}
    (unstarted : ∀ id call, .started id call ∉ more) : Registers w t (notes ++ more) where
  known := registers.known
  fresh number := List.mem_append_left _ (registers.fresh number)
  only {_ _} member := registers.only ((List.mem_append.mp member).resolve_right (unstarted _ _))

theorem Registered.moved (registered : w.Registered) (orderly : w.Orderly)
    (moved : Moved w t lock place s notes w') (mine : ∀ n ∈ notes, n.id = t.id)
    (registers : Registers w t notes) : w'.Registered where
  started {u} has := by
    rw [moved.log, List.mem_append]
    rcases moved.has_cases has with ⟨p, _, rfl⟩ | ⟨_, had⟩
    · exact registers.known.elim (fun number => .inr (registers.fresh number))
        (fun known => .inl (registered.started (t := t) known))
    · exact .inl (registered.started had)
  once {id call other} one two := by
    have apart {call other : Call} (before : .started id call ∈ w.log)
        (now : .started id other ∈ notes) : False := by
      have number : id < w.nextId := orderly.noted before
      have same : id = t.id := mine _ now
      have := (registers.only now).1
      omega
    rw [moved.log, List.mem_append] at one two
    rcases one with one | one <;> rcases two with two | two
    · exact registered.once one two
    · exact (apart one two).elim
    · exact (apart two one).elim
    · exact (registers.only one).2.trans (registers.only two).2.symm
  known {n} member := by
    rw [moved.log] at member ⊢
    rcases List.mem_append.mp member with before | now
    · obtain ⟨call, started⟩ := registered.known before
      exact ⟨call, List.mem_append_left _ started⟩
    · refine ⟨t.call, List.mem_append.mpr ?_⟩
      rw [mine n now]
      exact registers.known.elim (fun number => .inr (registers.fresh number))
        (fun known => .inl (registered.started known))

omit σ in
theorem unstarted_of_final (final : ∀ n ∈ notes, n.isFinal = true) (id : Nat) (call : Call) :
    .started id call ∉ notes := fun member => nomatch final _ member

section History

variable (w : World σ) (t : Task)

theorem prefix_note (n : Note) : w.log <+: (w.note n).log := List.prefix_append ..

theorem prefix_publish : w.log <+: w.publish.log := by
  unfold publish
  split <;> exact List.prefix_rfl

theorem prefix_place (p : Place) : w.log <+: (w.place t p).log := by
  unfold World.place
  split <;> exact List.prefix_rfl

theorem prefix_run {α : Type} (id : Nat) (work : Act σ α) : w.log <+: (w.run id work).2.log := by
  rw [run_eq]
  exact List.prefix_append ..

theorem prefix_leave : w.log <+: ((w.landIfAboard t).remove t.id).log := by
  unfold landIfAboard
  split
  · exact List.prefix_append ..
  · exact List.prefix_rfl

theorem prefix_conclude (result : Except AuthError Value) : w.log <+: (w.conclude t result).log := by
  have published (w : World σ) (publishes : Bool) :
      w.log <+: (if publishes then w.publish else w).log := by
    split
    · exact prefix_publish w
    · exact List.prefix_rfl
  refine (prefix_leave w t).trans ?_
  unfold conclude
  generalize (w.landIfAboard t).remove t.id = gone
  split
  · exact (published (gone.endInit _) _).trans (prefix_note ..)
  · exact (prefix_publish (gone.endInit _)).trans (prefix_note (World.endStartup _) _)
  · exact (published gone _).trans (prefix_note ..)

theorem prefix_settle (result : Except AuthError Stop) : w.log <+: (w.settle t result).log := by
  match result with
  | .ok (.wait a) => exact (prefix_place w t _).trans (prefix_note ..)
  | .ok (.finish v) | .error e => exact prefix_conclude ..

variable [TokenStore σ]

theorem prefix_board : w.log <+: (w.board t).log := by
  unfold board
  let arrived := w.setFlightLock (w.flight.lock.arrive t.id)
  split
  · exact ((prefix_note arrived _).trans (prefix_run ..)).trans (prefix_settle ..)
  · exact prefix_place arrived t _

theorem prefix_proceed (work : Act σ Move) : w.log <+: (w.proceed t work).log := by
  refine (prefix_run w t.id work).trans ?_
  unfold proceed
  split
  next ran => exact ran ▸ prefix_board ..
  next ran => exact ran ▸ prefix_settle ..
  next ran => exact ran ▸ prefix_settle ..

theorem prefix_observe : w.log <+: (w.observe t).log := by
  unfold observe
  let arrived := w.setStartupLock (w.startup.lock.arrive t.id)
  split
  · exact prefix_note (w.remove t.id) _
  · split
    · exact prefix_proceed arrived t _
    · exact prefix_place arrived t _

/-- A call says first what it is. -/
theorem started_of_start (call : Call) (publishes : Bool) :
    .started w.nextId call ∈ (w.step (.start call publishes)).log := by
  let t : Task := { id := w.nextId, call, publishes, place := .startupTurn }
  let begun := { w with nextId := w.nextId + 1 }.note (.started t.id call)
  have grows : begun.log <+: (w.start call publishes).log := by
    unfold start
    split
    · exact prefix_observe begun t
    · exact prefix_proceed begun t _
  exact grows.subset (List.mem_append_right _ List.mem_cons_self)

end History

variable [TokenStore σ]

theorem Comes.registers (comes : Comes w t occasion lock notes) (orderly : w.Orderly) :
    Registers w t notes := by
  induction comes with
  | fresh number => exact ⟨.inl number, fun _ => List.mem_singleton.mpr rfl, by simp [number]⟩
  | roused has | answered has | isCalled has => exact .of_unstarted has orderly (by simp)
  | boards _ _ _ ih => exact ih.append (by simp)

theorem Registered.lists (registered : w.Registered) (orderly : w.Orderly)
    (comes : Comes w t occasion lock notes) : .started t.id t.call ∈ w.log ++ notes :=
  List.mem_append.mpr (comes.known.symm.imp registered.started (comes.registers orderly).fresh)

/-- Whoever has done a stretch of work is in the history. -/
theorem Registered.lists_turned (registered : w.Registered) (orderly : w.Orderly)
    (comes : Comes w t occasion lock notes) {deeds closing : List Note}
    (log : w'.log = w.log ++ (notes ++ deeds ++ closing)) : .started t.id t.call ∈ w'.log := by
  rw [log, List.append_assoc, ← List.append_assoc]
  exact List.mem_append_left _ (registered.lists orderly comes)

omit [TokenStore σ] in
theorem closing_unstarted (result : Except AuthError Move) (id : Nat) (call : Call) :
    .started id call ∉ closing t lock s result := by
  intro member
  rcases closing_cases member with final | ⟨_, _, ⟨⟩⟩
  exact Bool.false_ne_true final

/-- Whatever an action does, it registers its call if that is new, and no other. -/
theorem Moves.registers {id : Nat} (moves : Moves w w' id) (orderly : w.Orderly) :
    w' = w ∨ ∃ t lock place s notes, t.id = id ∧ Moved w t lock place s notes w' ∧
      (∀ n ∈ notes, n.id = t.id) ∧ Registers w t notes := by
  cases moves with
  | idle same => exact .inl same
  | turns comes turn stops moved =>
    refine .inr ⟨_, _, _, _, _, rfl, moved, fun n => (orderly.turns comes turn).mine, ?_⟩
    exact ((comes.registers orderly).append (by simp)).append (closing_unstarted _)
  | queues comes turn moved =>
    exact .inr ⟨_, _, _, _, _, rfl, moved, fun n => comes.mine, comes.registers orderly⟩
  | shares has place holds served moved =>
    exact .inr ⟨_, _, _, _, _, rfl, moved, by simp [Note.id], .of_unstarted has orderly (by simp)⟩
  | waits number only moved =>
    refine .inr ⟨_, _, _, _, _, rfl, moved, by simp [Note.id], .inl number, ?_, ?_⟩ <;> simp [number]
  | observes comes moved =>
    exact .inr ⟨_, _, _, _, _, rfl, moved, fun n member => comes.mine_snoc rfl member,
      (comes.registers orderly).append (by simp)⟩
  | drops has moved =>
    refine .inr ⟨_, _, _, _, _, rfl, moved, fun n member => (parting_final member).1, ?_⟩
    exact .of_unstarted has orderly (unstarted_of_final fun n member => (parting_final member).2)

theorem Moves.registered {id : Nat} (moves : Moves w w' id) (orderly : w.Orderly)
    (registered : w.Registered) : w'.Registered := by
  rcases moves.registers orderly with same | ⟨t, _, _, _, _, _, moved, mine, registers⟩
  · rwa [same]
  · exact registered.moved orderly moved mine registers

theorem Reachable.registered (reachable : w.Reachable) : w.Registered :=
  reachable.induction (fun _ _ _ => ⟨nofun, nofun, nofun⟩)
    fun _ action orderly => (step_moves orderly action).registered orderly

/-- No call starts but by being started, and then under the next number. -/
theorem Orderly.started_by (orderly : w.Orderly) (registered : w.Registered) {action : Action}
    (log : (w.step action).log = w.log ++ notes) {id : Nat} {call : Call}
    (started : .started id call ∈ notes) :
    ∃ publishes, action = .start call publishes ∧ id = w.nextId := by
  have moves := step_moves orderly action
  have registered' := moves.registered orderly registered
  have idle (same : w.step action = w) : False := by
    obtain rfl : notes = [] := by simpa [same] using log
    contradiction
  rcases moves.registers orderly with same | ⟨t, _, _, _, now, caller, moved, mine, registers⟩
  · exact (idle same).elim
  · obtain rfl := List.append_cancel_left (log.symm.trans moved.log)
    obtain rfl : id = t.id := mine _ started
    have number := (registers.only started).1
    have free : w.task? t.id = none := orderly.fresh number
    cases action with
    | start call' publishes =>
      have begun := started_of_start w call' publishes
      rw [← number] at begun
      obtain rfl := registered'.once begun (log ▸ List.mem_append_right _ started)
      exact ⟨publishes, rfl, number⟩
    | answer id method reply =>
      obtain rfl : t.id = id := caller
      exact (idle (by simp only [World.step, World.answer, free])).elim
    | wake id =>
      obtain rfl : t.id = id := caller
      exact (idle (by simp only [World.step, World.wake, free])).elim
    | drop id =>
      obtain rfl : t.id = id := caller
      exact (idle (by simp only [World.step, World.drop, free])).elim

/-- The history of a run says of each call which action has started it. -/
theorem started_in_run (chain : ChainConfig) (hasWallet : Bool) (store : σ) {actions : List Action}
    {id : Nat} {call : Call} :
    let run (actions : List Action) : World σ :=
      (ofSession (Session.create chain hasWallet store)).steps actions
    .started id call ∈ (run actions).log →
      ∃ earlier publishes later, actions = earlier ++ .start call publishes :: later ∧
        id = (run earlier).nextId := by
  intro run started
  induction actions using List.reverseRecOn with
  | nil => contradiction
  | append_singleton actions action ih =>
    have reachable : (run actions).Reachable := ⟨_, _, _, _, rfl⟩
    have last : run (actions ++ [action]) = (run actions).step action := steps_append ..
    obtain ⟨notes, log⟩ := reachable.orderly.log_steps [action]
    rw [steps_singleton] at log
    rw [last, ← log, List.mem_append] at started
    rcases started with before | now
    · obtain ⟨earlier, publishes, later, rfl, number⟩ := ih before
      exact ⟨earlier, publishes, later ++ [action], by simp, number⟩
    · obtain ⟨publishes, rfl, number⟩ := reachable.orderly.started_by reachable.registered log.symm now
      exact ⟨actions, publishes, [], rfl, number⟩

theorem Moves.asked {id number : Nat} {request : Request} (moves : Moves w w' id)
    (orderly : w.Orderly) (registered : w.Registered) (asked : .asked number request ∈ w'.log) :
    .asked number request ∈ w.log ∨ ∃ call, ∃ a : Await,
      .started number call ∈ w'.log ∧ a.isOf call = true ∧ a.request = request := by
  cases moves.sorts orderly with
  | idle same => exact .inl (same ▸ asked)
  | turns comes turn moved =>
    have known := registered.lists_turned orderly comes moved.log
    rw [moved.log, List.mem_append] at asked
    refine asked.imp_right fun now => ?_
    simp only [List.mem_append, List.mem_map, reduceCtorEq, and_false, exists_false, or_false] at now
    rcases closing_cases (now.resolve_left (comes.unasked _ _)) with final | ⟨a, rfl, same⟩
    · contradiction
    · obtain ⟨rfl, rfl⟩ := Note.asked.inj same
      exact ⟨_, a, known, (turn.waits (comes.fits orderly)).1, rfl⟩
  | quiet moved _ quiet =>
    rw [moved.log, List.mem_append] at asked
    exact .inl (asked.resolve_right (quiet.unasked _ _))

/-- What is asked is asked by a call that may ask it. -/
def Suited (w : World σ) : Prop :=
  ∀ id request, .asked id request ∈ w.log →
    ∃ call, ∃ a : Await, .started id call ∈ w.log ∧ a.isOf call = true ∧ a.request = request

theorem Reachable.suited (reachable : w.Reachable) : w.Suited :=
  reachable.stepwise (fun _ _ _ _ _ asked => nomatch asked)
    fun w action reachable suited id request asked => by
      have orderly := reachable.orderly
      rcases (step_moves orderly action).asked orderly reachable.registered asked with before | now
      · obtain ⟨call, a, started, suits⟩ := suited id request before
        exact ⟨call, a, (orderly.log_steps [action]).subset started, suits⟩
      · exact now

end WalletSession.World
