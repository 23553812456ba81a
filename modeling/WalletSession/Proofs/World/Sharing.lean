import WalletSession.Proofs.World.Waiting

/-! Sharing the single flight. A call that has waited takes over a result exactly if the last flight
ended while it waited, with the session verified on it, and the session is still connected. So
whoever comes while somebody connects is served by it without a question of its own. -/
namespace WalletSession.World

variable {σ : Type} {w w' : World σ} {t u : Task} {lock : Lock} {notes : List Note}
  {place : Option Place} {s : Session σ} {seen id : Nat}

/-- The last flight that ended did so after the call came, a handshake or a connect was verified on
it, and the session is still connected. -/
def Serves (w : World σ) (t : Task) : Prop :=
  w.session.state.connected = true ∧
    ∃ before since id call, w.log = before ++ .started t.id t.call :: since ∧
      (landings since).getLast? = some (id, true) ∧ .started id call ∈ w.log ∧
      call.isShareable = true ∧ .returned id (.ok (call.handshakeValue .verified)) ∈ w.log

/-- The call waits for a result, and a flight has ended since it came. -/
def Expects (w : World σ) (id : Nat) : Prop :=
  ∃ t seen, t.id = id ∧ w.Has t ∧ t.place = .flightTurn seen ∧ seen < w.flight.completed

/-- A result is there for the call and for everybody ahead of it in line. -/
structure Ready (w : World σ) (ahead : List Nat) (id : Nat) : Prop where
  shareable : w.flight.shareable = true
  connected : w.session.state.connected = true
  line : ahead ++ [id] <+: w.flight.lock.line
  expects {i : Nat} (member : i ∈ ahead ++ [id]) : w.Expects i

section Ready

variable {ahead : List Nat}

/-- The lock belongs to somebody who is served. -/
theorem Ready.holder (ready : w.Ready ahead id) (orderly : w.Orderly) :
    ∃ t seen rest, ahead ++ [id] = t.id :: rest ∧ w.flight.lock.holder = some t.id ∧ w.Has t ∧
      t.place = .flightTurn seen ∧ w.isServed seen = true := by
  obtain ⟨first, rest, split⟩ := List.exists_cons_of_ne_nil (l := ahead ++ [id]) (by simp)
  obtain ⟨t, seen, rfl, has, place, before⟩ := ready.expects (split ▸ List.mem_cons_self)
  refine ⟨t, seen, rest, split, ?_, has, place,
    isServed_iff.mpr ⟨(Nat.ne_of_lt before).symm, ready.shareable, ready.connected⟩⟩
  obtain ⟨behind, line⟩ := split ▸ ready.line
  exact orderly.lock.holder_of_line line.symm

theorem Ready.moved (ready : w.Ready ahead id) (moved : Moved w t lock place s notes w')
    (joins : Joins w t lock) (other : t.id ≠ id) (line : ahead ++ [id] <+: lock.line)
    (stays : place.isSome = true → t.id ∉ ahead) (unlanded : ∀ n ∈ notes, n.landed? = none)
    (connected : s.state.connected = true) : w'.Ready (ahead.filter (· != t.id)) id := by
  have flight : w'.flight.completed = w.flight.completed ∧
      w'.flight.shareable = w.flight.shareable := by
    rw [moved.flight, Flight.after_quiet _ _ (landings_eq_nil unlanded)]
    exact ⟨rfl, rfl⟩
  have kept : ahead.filter (· != t.id) ++ [id] = (ahead ++ [id]).filter (· != t.id) := by
    rw [List.filter_append, List.filter_cons_of_pos (by simpa using Ne.symm other), List.filter_nil]
  refine ⟨flight.2.trans ready.shareable, moved.session ▸ connected, ?_, fun {i} member => ?_⟩
  · rw [moved.lock]
    split
    next goes => rwa [Lock.filter_absent (stays goes)]
    next =>
      rw [joins.orderly.line_leave, kept]
      exact line.filter _
  · rw [kept, List.mem_filter, bne_iff_ne] at member
    obtain ⟨u, seen, rfl, has, place, before⟩ := ready.expects member.1
    exact ⟨u, seen, rfl, (moved.has_other member.2).mpr has, place, flight.1 ▸ before⟩

end Ready

variable [TokenStore σ]

/-- The counter and the flag by which a call decides say what the history says. -/
theorem isServed_iff_serves (reachable : w.Reachable) (has : w.Has t)
    (place : t.place = .flightTurn seen) (boards : t.call.boards = true) :
    w.isServed seen = true ↔ w.Serves t := by
  obtain ⟨before, since, log, count, only⟩ := (reachable.lined has place).arrived boards
  obtain ⟨completed, shareable, _, verified⟩ := reachable.tallied
  have split : landings w.log = landings before ++ landings since := by
    rw [log, landings_append, landings_cons]
    rfl
  rw [isServed_iff, shareable, completed, split, List.length_append, List.getLast?_append, count]
  constructor
  · rintro ⟨counted, ⟨id, call, last, started, shares⟩, connected⟩
    have ended : landings since ≠ [] := fun none => counted (by simp [none])
    obtain ⟨last', same⟩ := Option.isSome_iff_exists.mp (List.getLast?_isSome.mpr ended)
    rw [same, Option.some_or] at last
    rw [last] at same
    have landed : .landed id true ∈ w.log := by
      refine mem_landings.mp ?_
      rw [split]
      exact List.mem_append_right _ (List.mem_of_getLast? same)
    exact ⟨connected, before, since, id, call, log, same, started, shares,
      verified landed started shares⟩
  · rintro ⟨connected, before', since', id, call, log', last, started, shares, _⟩
    -- A call starts once, so the two histories agree on when it came.
    have once {notes : List Note} (others : ∀ n ∈ notes, n.id ≠ t.id) :
        .started t.id t.call ∉ notes := fun member => others _ member rfl
    obtain ⟨rfl, _, rfl⟩ := (List.append_cons_inj_of_notMem
      (once fun n member => only n (List.mem_append_left _ member))
      (once fun n member => only n (List.mem_append_right _ member))).mp (log.symm.trans log')
    have ended : landings since ≠ [] := List.ne_nil_of_mem (List.mem_of_getLast? last)
    refine ⟨fun counted => ended (List.length_eq_zero_iff.mp (by omega)), ⟨id, call, ?_⟩, connected⟩
    exact ⟨by rw [last, Option.some_or], started, shares⟩

theorem wake_of_holder (has : w.Has t) (place : t.place = .flightTurn seen)
    (holds : w.flight.lock.holder = some t.id) : w.step (.wake t.id) = w.takeTurn t seen := by
  have found : w.task? t.id = some t := has
  simp [step, wake, found, isAwake, place, holds]

/-- A call that is served returns at once. -/
theorem wake_of_served (orderly : w.Orderly) (has : w.Has t) (place : t.place = .flightTurn seen)
    (holds : w.flight.lock.holder = some t.id) (served : w.isServed seen = true) :
    Moved w t w.flight.lock none (w.session.concluded t.call (.ok t.call.sharedValue))
      [.returned t.id ((w.session.concluded t.call (.ok t.call.sharedValue)).told
        (.ok t.call.sharedValue) t.call)] (w.step (.wake t.id)) := by
  rw [wake_of_holder has place holds, takeTurn, if_pos served]
  exact orderly.shares has holds

/-- A call that is not served has a flight of its own. -/
theorem wake_of_unserved (orderly : w.Orderly) (has : w.Has t) (place : t.place = .flightTurn seen)
    (holds : w.flight.lock.holder = some t.id) (unserved : w.isServed seen = false) :
    w.step (.wake t.id) = w.embark t ∧
      ∃ notes, (w.step (.wake t.id)).log = w.log ++ .boarded t.id :: notes := by
  have same : w.step (.wake t.id) = w.embark t := by
    rw [wake_of_holder has place holds, takeTurn, if_neg (by simp [unserved])]
  obtain ⟨⟨result, s⟩, performed⟩ : ∃ ended, w.session.perform (Session.aboard t.call) = ended :=
    ⟨_, rfl⟩
  have moved := (orderly.opened has).embark (.inl has) (orderly.lock.not_waiting holds) performed
  refine ⟨same, s.deeds.map (.did t.id) ++ closing t w.flight.lock s.rested (result.map .stop), ?_⟩
  rw [same, moved.log]
  simp

/-- A disconnect or startup takes the connection away. -/
def Disconnects (w : World σ) (action : Action) : Prop :=
  w.session.state.connected = true ∧ (w.step action).session.state.connected = false ∧
    ∃ call, .started (w.caller action) call ∈ (w.step action).log ∧
      (call = .disconnect ∨ call.isStartup = true)

omit [TokenStore σ] in
/-- Startup that takes over a result succeeds. -/
theorem connected_of_shared (call : Call) (connected : s.state.connected = true) :
    (s.concluded call (.ok call.sharedValue)).state.connected = true := by
  rw [Session.concluded_connected]
  split
  next startup => cases call <;> first | rfl | contradiction
  next => exact connected

section Ready

variable {ahead : List Nat} {occasion : Occasion}

/-- Nobody can work on the flight before those who are served are through. -/
theorem Ready.ashore (ready : w.Ready ahead id) (orderly : w.Orderly)
    (comes : Comes w t occasion lock notes) : occasion.isAshore = true := by
  obtain ⟨u, seen, _, _, holds, has, place, served⟩ := ready.holder orderly
  refine Bool.not_eq_false _ ▸ fun aboard => ?_
  cases comes with
  | fresh | roused => contradiction
  | answered other asking =>
    have holds' := orderly.aboard other asking (by simpa [Occasion.isAshore] using aboard)
    obtain rfl := other.unique has (Option.some.inj (holds'.symm.trans holds))
    cases asking.symm.trans place
  | boards _ _ free => simp [Lock.isFree, holds] at free
  | isCalled other waiting holds' unserved =>
    obtain rfl := other.unique has (Option.some.inj (holds'.symm.trans holds))
    cases waiting.symm.trans place
    simp [served] at unserved

omit [TokenStore σ] in
theorem Ready.elsewhere (ready : w.Ready ahead id) {number : Nat}
    (absent : number ∉ w.flight.lock.line) : number ≠ id ∧ number ∉ ahead := by
  constructor
  · rintro rfl
    exact absent (ready.line.subset (List.mem_append_right _ (List.mem_singleton.mpr rfl)))
  · exact fun member => absent (ready.line.subset (List.mem_append_left _ member))

theorem Ready.turns {result : Except AuthError Move} {s : Session σ} (ready : w.Ready ahead id)
    (orderly : w.Orderly) (registered : w.Registered) (comes : Comes w t occasion lock notes)
    (turn : Session.Turn t.call w.session occasion result s)
    (moved : Moved w t lock (rest result) (settled s.rested t.call result)
      (notes ++ s.deeds.map (.did t.id) ++ closing t lock s.rested result) w')
    (keeps : ∀ call, .started t.id call ∈ w'.log → call = .disconnect ∨ call.isStartup = true →
      w'.session.state.connected = true) : ∃ ahead', w'.Ready ahead' id := by
  have ashore := ready.ashore orderly comes
  have absent := ready.elsewhere (comes.ashore orderly ashore)
  have connected : (settled s.rested t.call result).state.connected = true := by
    by_cases special : t.call = .disconnect ∨ t.call.isStartup = true
    · rw [← moved.session]
      exact keeps t.call (registered.lists_turned orderly comes moved.log) special
    · rw [not_or, Bool.not_eq_true] at special
      rw [settled_of_other _ _ special.2]
      exact (turn.stays_connected ashore ready.connected).resolve_right special.1
  exact ⟨_, ready.moved moved (comes.joins orderly) absent.1
    (comes.lock_ashore ashore ▸ ready.line) (fun _ => absent.2)
    (fun _ => comes.unlanded_ashore orderly ashore) connected⟩

omit [TokenStore σ] in
/-- Nobody who is dropped flies: the lock belongs to somebody who waits. -/
theorem Ready.unlanded_parting (ready : w.Ready ahead id) (orderly : w.Orderly) (has : w.Has t)
    {n : Note} (member : n ∈ .dropped t.id :: parting w t) : n.landed? = none := by
  obtain ⟨u, seen, _, _, holds, has', place, _⟩ := ready.holder orderly
  cases n <;> first | rfl | skip
  obtain ⟨⟨a, _, asking, aboard⟩, _⟩ := landed_of_parting orderly has member
  have holds' := orderly.aboard has asking aboard
  obtain rfl := has.unique has' (Option.some.inj (holds'.symm.trans holds))
  cases asking.symm.trans place

/-- The call goes on waiting for the result or takes it over, unless it is dropped or the connection
is taken away. -/
theorem Moves.ready {mover : Nat} (moves : Moves w w' mover) (orderly : w.Orderly)
    (registered : w.Registered) (ready : w.Ready ahead id) (undropped : .dropped id ∉ w'.log)
    (keeps : ∀ call, .started mover call ∈ w'.log → call = .disconnect ∨ call.isStartup = true →
      w'.session.state.connected = true) :
    (∃ ahead', w'.Ready ahead' id) ∨ ∃ t, w.Has t ∧ t.id = id ∧
      Moved w t w.flight.lock none (w.session.concluded t.call (.ok t.call.sharedValue))
        [.returned t.id ((w.session.concluded t.call (.ok t.call.sharedValue)).told
          (.ok t.call.sharedValue) t.call)] w' := by
  cases moves with
  | idle same => exact .inl ⟨ahead, same ▸ ready⟩
  | turns comes turn stops moved =>
    exact .inl (ready.turns orderly registered comes turn moved keeps)
  | queues comes turn moved =>
    have ashore := comes.ashore orderly turn.board_ashore
    have absent := ready.elsewhere ashore
    refine .inl ⟨_, ready.moved moved (orderly.arrives ashore) absent.1 ?_ (fun _ => absent.2)
      (fun _ => comes.unlanded) ready.connected⟩
    rw [orderly.lock.line_arrive]
    exact ready.line.trans (List.prefix_append ..)
  | @shares t seen has place holds served moved =>
    by_cases same : t.id = id
    · exact .inr ⟨t, has, same, moved⟩
    · refine .inl ⟨_, ready.moved moved (orderly.stays t) same ready.line nofun
        (by simp [Note.landed?]) (connected_of_shared t.call ready.connected)⟩
  | waits number only moved =>
    have absent := ready.elsewhere (orderly.ashore_fresh number)
    exact .inl ⟨_, ready.moved moved (orderly.stays _) absent.1 ready.line (fun _ => absent.2)
      (by simp [Note.landed?]) ready.connected⟩
  | observes comes moved =>
    have absent := ready.elsewhere (comes.ashore orderly rfl)
    refine .inl ⟨_, ready.moved moved (orderly.stays _) absent.1 ready.line nofun ?_ ready.connected⟩
    simpa [or_imp, forall_and, Note.landed?] using fun _ => comes.unlanded
  | @drops t has moved =>
    have other : t.id ≠ id := by
      rintro rfl
      refine undropped ?_
      rw [moved.log]
      exact List.mem_append_right _ List.mem_cons_self
    exact .inl ⟨_, ready.moved moved (orderly.stays _) other ready.line nofun
      (fun _ => ready.unlanded_parting orderly has) ready.connected⟩

/-- The call came, was served, and did nothing else. -/
def Shared (w : World σ) (id : Nat) (call : Call) : Prop :=
  w.Gone id ∧ own id w.log = [.started id call, .returned id (.ok call.sharedValue)]

theorem Shared.steps {call : Call} (shared : w.Shared id call) (orderly : w.Orderly)
    (actions : List Action) : (w.steps actions).Shared id call := by
  obtain ⟨gone, notes, log, others⟩ := shared.1.steps orderly actions
  exact ⟨gone, by rw [log, own_append, own_others others, List.append_nil, shared.2]⟩

variable {call : Call}

theorem Ready.own (ready : w.Ready ahead id) (reachable : w.Reachable)
    (started : .started id call ∈ w.log) (boards : call.boards = true) :
    own id w.log = [.started id call] := by
  obtain ⟨t, seen, rfl, has, place, _⟩ :=
    ready.expects (List.mem_append_right _ (List.mem_singleton.mpr rfl))
  obtain rfl := reachable.registered.once started (reachable.registered.started has)
  exact ((reachable.lined has place).arrived boards).own

theorem Ready.shared (ready : w.Ready ahead t.id) (reachable : w.Reachable) (has : w.Has t)
    (boards : t.call.boards = true)
    (moved : Moved w t w.flight.lock none (w.session.concluded t.call (.ok t.call.sharedValue))
      [.returned t.id ((w.session.concluded t.call (.ok t.call.sharedValue)).told
        (.ok t.call.sharedValue) t.call)] w') : w'.Shared t.id t.call := by
  refine ⟨moved.gone, ?_⟩
  rw [moved.log, own_append, ready.own reachable (reachable.registered.started has) boards,
    Session.told_of_other _ _ (Call.other_of_boards boards)]
  simp [WalletSession.own, Note.id]

theorem Ready.step (ready : w.Ready ahead id) (reachable : w.Reachable)
    (started : .started id call ∈ w.log) (boards : call.boards = true) (action : Action)
    (undropped : .dropped id ∉ (w.step action).log) (steady : ¬w.Disconnects action) :
    (∃ ahead', (w.step action).Ready ahead' id) ∨ (w.step action).Shared id call := by
  have orderly := reachable.orderly
  refine ((step_moves orderly action).ready orderly reachable.registered ready undropped
    fun other begun special => ?_).imp_right ?_
  · refine Bool.not_eq_false _ ▸ fun gone => ?_
    exact steady ⟨ready.connected, gone, other, begun, special⟩
  · rintro ⟨t, has, rfl, moved⟩
    obtain rfl := reachable.registered.once started (reachable.registered.started has)
    exact ready.shared reachable has boards moved

/-- As long as the call is there, nobody drops it or takes the connection away. -/
structure Undisturbed (w : World σ) (id : Nat) (actions : List Action) : Prop where
  undropped : .dropped id ∉ (w.steps actions).log
  steady (earlier : List Action) (action : Action) (later : List Action)
    (split : actions = earlier ++ action :: later) (there : (w.steps earlier).task? id ≠ none) :
    ¬(w.steps earlier).Disconnects action

theorem Ready.steps {actions : List Action} (ready : w.Ready ahead id) (reachable : w.Reachable)
    (started : .started id call ∈ w.log) (boards : call.boards = true)
    (undisturbed : w.Undisturbed id actions) :
    (∃ ahead', (w.steps actions).Ready ahead' id) ∨ (w.steps actions).Shared id call := by
  induction actions generalizing w ahead with
  | nil => exact .inl ⟨ahead, ready⟩
  | cons action actions ih =>
    obtain ⟨undropped, steady⟩ := undisturbed
    have grows := (reachable.step action).orderly.log_steps actions
    have there : w.task? id ≠ none := by
      obtain ⟨t, _, rfl, has, _⟩ :=
        ready.expects (List.mem_append_right _ (List.mem_singleton.mpr rfl))
      exact fun none => nomatch none.symm.trans has
    rcases ready.step reachable started boards action (fun dropped => undropped (grows.subset dropped))
      (steady [] action actions rfl there) with ⟨ahead', ready⟩ | shared
    · refine ih ready (reachable.step action) ?_ ⟨undropped, fun earlier _ _ split => ?_⟩
      · exact (reachable.orderly.log_steps [action]).subset started
      · exact steady (action :: earlier) _ _ (congrArg (action :: ·) split)
    · exact .inr (shared.steps (reachable.step action).orderly actions)

/-- Once everybody in line has gone on, the call has taken the result over. -/
theorem Ready.wakes (ready : w.Ready ahead id) (reachable : w.Reachable)
    (started : .started id call ∈ w.log) (boards : call.boards = true) :
    (w.steps ((ahead ++ [id]).map .wake)).Shared id call := by
  induction ahead generalizing w with
  | nil =>
    obtain ⟨t, seen, rest, split, holds, has, place, served⟩ := ready.holder reachable.orderly
    obtain ⟨rfl, _⟩ := List.cons.inj split
    obtain rfl := reachable.registered.once started (reachable.registered.started has)
    exact ready.shared reachable has boards
      (wake_of_served reachable.orderly has place holds served)
  | cons first ahead ih =>
    obtain ⟨t, seen, rest, split, holds, has, place, served⟩ := ready.holder reachable.orderly
    obtain ⟨rfl, _⟩ := List.cons.inj split
    have moved := wake_of_served reachable.orderly has place holds served
    have once : (t.id :: (ahead ++ [id])).Nodup :=
      reachable.orderly.lock.once.sublist ready.line.sublist
    have absent := (List.nodup_cons.mp once).1
    rw [List.mem_append, not_or, List.mem_singleton] at absent
    have next := ready.moved moved (reachable.orderly.stays t) absent.2 ready.line nofun
      (by simp [Note.landed?]) (connected_of_shared t.call ready.connected)
    rw [List.filter_cons_of_neg (by simp), Lock.filter_absent absent.1] at next
    exact ih next (reachable.step _) ((reachable.orderly.log_steps [.wake t.id]).subset started)

end Ready

end WalletSession.World
