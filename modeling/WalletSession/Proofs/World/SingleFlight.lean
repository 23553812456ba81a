import WalletSession.Proofs.World.Sharing

/-! One connect for everybody. Whoever comes while a handshake or a connect is under way that ends
connected takes its result over when the turn comes, and asks nobody anything. -/
namespace WalletSession.World

variable {σ : Type} [TokenStore σ] {w w' : World σ} {t u : Task} {a : Await} {seen id : Nat}

/-- A flight that others may share ends connected. -/
theorem Moves.lands (moves : Moves w w' id) (orderly : w.Orderly) (tallied : w.Tallied)
    (flies : w.Flies t a) (shares : t.call.isShareable = true) (before : .landed t.id true ∉ w.log)
    (landed : .landed t.id true ∈ w'.log) :
    w'.flight.shareable = true ∧ w'.session.state.connected = true ∧
      w.flight.completed < w'.flight.completed ∧
      ∃ lock notes s, Joins w t lock ∧ Moved w t lock none s notes w' := by
  cases moves with
  | idle same => exact absurd (same ▸ landed) before
  | @turns u occasion lock notes result s comes turn stops moved =>
    have now := (List.mem_append.mp (moved.log ▸ landed)).resolve_left before
    obtain rfl := orderly.mover comes.known flies.1 ((orderly.turns comes turn).mine now)
    obtain ⟨_, connected, gone⟩ := comes.landed now
    have ended : landings (notes ++ s.deeds.map (.did t.id) ++ closing t lock s.rested result) ≠ [] :=
      List.ne_nil_of_mem (mem_landings.mpr now)
    obtain ⟨last, same⟩ := Option.isSome_iff_exists.mp (List.getLast?_isSome.mpr ended)
    have final := (comes.landed (mem_landings.mp (List.mem_of_getLast? same))).2.1
    refine ⟨?_, ?_, ?_, lock, _, _, comes.joins orderly, gone ▸ moved⟩
    · rw [moved.flight]
      simp only [Flight.after_shareable, same, Option.map_some, Option.getD_some, shares, final,
        ← connected, Bool.and_self]
    · rw [moved.session, settled_of_other _ _ (Call.other_of_shares shares)]
      exact connected.symm
    · rw [moved.flight]
      simp only [Flight.after_completed]
      exact Nat.lt_add_of_pos_right (List.length_pos_iff.mpr ended)
  | queues comes turn moved =>
    have now := (List.mem_append.mp (moved.log ▸ landed)).resolve_left before
    cases comes.unlanded now
  | shares has place holds served moved | waits number only moved =>
    simp [moved.log, before] at landed
  | observes comes moved =>
    have now := (List.mem_append.mp (moved.log ▸ landed)).resolve_left before
    rw [List.mem_append] at now
    cases comes.unlanded (now.resolve_right (by simp))
  | @drops u has moved =>
    have now := (List.mem_append.mp (moved.log ▸ landed)).resolve_left before
    obtain rfl := has.unique flies.1 (parting_final now).1.symm
    have connected := (landed_of_parting orderly has now).2
    simp [tallied.apart flies shares] at connected

/-- Everybody in line when such a flight ends has a result waiting. -/
theorem Reachable.lands (reachable : w.Reachable) (action : Action) (flies : w.Flies t a)
    (shares : t.call.isShareable = true) (before : .landed t.id true ∉ w.log)
    (landed : .landed t.id true ∈ (w.step action).log) (has : w.Has u)
    (place : u.place = .flightTurn seen) : ∃ ahead, (w.step action).Ready ahead u.id := by
  have orderly := reachable.orderly
  obtain ⟨shareable, connected, counted, lock, notes, s, joins, moved⟩ :=
    (step_moves orderly action).lands orderly reachable.tallied flies shares before landed
  have line (i : Nat) : i ∈ (w.step action).flight.lock.line ↔
      i ∈ w.flight.lock.line ∧ i ≠ t.id := by
    rw [moved.lock, Option.isSome_none, if_neg Bool.false_ne_true, joins.orderly.line_leave,
      List.mem_filter, bne_iff_ne]
    exact and_congr_left fun other => joins.line other
  have other : u.id ≠ t.id := fun same => by
    obtain rfl := has.unique flies.1 same
    cases place.symm.trans flies.2.1
  obtain ⟨ahead, behind, split⟩ :=
    List.append_of_mem ((line u.id).mpr ⟨(reachable.lined has place).lined, other⟩)
  have first : ahead ++ [u.id] <+: (w.step action).flight.lock.line := ⟨behind, by simp [split]⟩
  refine ⟨ahead, shareable, connected, first, fun {i} member => ?_⟩
  -- Whoever is in line now has waited since before the end of the flight.
  obtain ⟨v, rfl, has', flying⟩ := (orderly.step action).line (first.subset member)
  have had := (moved.has_other ((line v.id).mp (first.subset member)).2).mp has'
  cases place' : v.place with
  | startupTurn => simp [place', Place.isFlying] at flying
  | flightTurn seen' =>
    exact ⟨v, seen', rfl, has', place', Nat.lt_of_le_of_lt (reachable.lined had place').before counted⟩
  | asking b =>
    have aboard : b.isAboard = true := by simpa [place', Place.isFlying] using flying
    obtain rfl := orderly.alone flies ⟨had, place', aboard⟩
    exact absurd rfl ((line v.id).mp (first.subset member)).2

/-- A call that makes for the flight while somebody is on it gets into the line. -/
theorem Orderly.queues {call : Call} (orderly : w.Orderly) (taken : w.flight.lock.isFree = false)
    (boards : call.boards = true) (publishes : Bool) :
    ∃ t : Task, t.id = w.nextId ∧ t.call = call ∧ t.place = .flightTurn w.flight.completed ∧
      (w.step (.start call publishes)).Has t := by
  let t : Task := { id := w.nextId, call, publishes, place := .startupTurn }
  have opened := (opened_start w (t := t) rfl).idle orderly.rested
  have begins : w.step (.start call publishes) =
      (({ w with nextId := w.nextId + 1 }.note (.started t.id t.call)).after t.id
        w.session).board t := by
    cases call <;> first | rfl | contradiction
  refine ⟨{ t with place := .flightTurn w.flight.completed }, rfl, rfl, rfl, ?_⟩
  have arrived := opened.arrive.place (.inr (orderly.fresh rfl)) (.flightTurn w.flight.completed)
  rw [begins, board, opened.flight, if_neg (by simp [taken]), Has]
  exact (arrived.tasks t.id).trans (if_pos rfl)

/-- A handshake or a connect is under way, and the last of these actions ends it connected. -/
structure Connects (w : World σ) (t : Task) (during : List Action) (ending : Action) : Prop where
  flies : ∃ a, w.Flies t a
  shares : t.call.isShareable = true
  aloft : .landed t.id true ∉ (w.steps during).log
  lands : .landed t.id true ∈ ((w.steps during).step ending).log

theorem Connects.flies_at {during earlier later : List Action} {ending : Action}
    (connects : w.Connects t during ending) (orderly : w.Orderly) (split : during = earlier ++ later) :
    ∃ u b, u.id = t.id ∧ u.call = t.call ∧ (w.steps earlier).Flies u b := by
  obtain ⟨⟨a, flies⟩, _, aloft, lands⟩ := connects
  refine (orderly.flies_steps flies earlier).resolve_right fun gone => aloft ?_
  subst split
  rw [steps_append] at lands ⊢
  have earlier' := orderly.steps earlier
  obtain ⟨_, notes, log, others⟩ := gone.steps earlier' (later ++ [ending])
  rw [steps_append] at log
  have landed := List.mem_append.mp (log ▸ lands)
  exact (earlier'.log_steps later).subset (landed.resolve_right fun late => others _ late rfl)

/-- Whoever comes while somebody connects and is not disturbed is served in its turn. -/
theorem Connects.serves {during earlier later after : List Action} {ending : Action} {call : Call}
    {publishes : Bool} (connects : w.Connects t during ending) (reachable : w.Reachable)
    (split : during = earlier ++ .start call publishes :: later) (boards : call.boards = true)
    (undisturbed : ((w.steps during).step ending).Undisturbed (w.steps earlier).nextId after) :
    let w' := ((w.steps during).step ending).steps after
    (∃ ahead, w'.Ready ahead (w.steps earlier).nextId ∧
        .started (w.steps earlier).nextId call ∈ w'.log) ∨
      w'.Shared (w.steps earlier).nextId call := by
  have orderly := reachable.orderly
  have orderly' := orderly.steps earlier
  have whole : w.steps during = ((w.steps earlier).step (.start call publishes)).steps later := by
    rw [split, steps_append, steps_cons]
  have holder (first rest : List Action) (same : during = first ++ rest) :
      (w.steps first).flight.lock.holder = some t.id ∧ t.id < (w.steps first).nextId := by
    obtain ⟨u, b, id, _, has, place, aboard⟩ := connects.flies_at orderly same
    rw [← id]
    exact ⟨(orderly.steps first).aboard has place aboard, (orderly.steps first).number has⟩
  have taken : (w.steps earlier).flight.lock.isFree = false := by
    simp [Lock.isFree, (holder earlier _ split).1]
  obtain ⟨u, number, rfl, place, has⟩ := orderly'.queues taken boards publishes
  rw [← number] at undisturbed ⊢
  have later' := (orderly.steps during).step ending
  have grows : (w.steps during).log <+: ((w.steps during).step ending).log :=
    (orderly.steps during).log_steps [ending]
  have waits : (w.steps during).Has u := by
    have undropped : .dropped u.id ∉ (w.steps during).log := fun dropped =>
      undisturbed.undropped ((later'.log_steps after).subset (grows.subset dropped))
    rw [whole] at undropped ⊢
    refine (orderly'.step _).lined_steps has place later (fun first rest same => ?_) undropped
    have owner := (holder (earlier ++ .start u.call publishes :: first) rest
      (by rw [split, same, List.append_assoc, List.cons_append])).1
    have before := (holder earlier _ split).2
    rw [steps_append, steps_cons] at owner
    rw [owner, number]
    exact fun same => absurd (Option.some.inj same) (Nat.ne_of_lt before)
  obtain ⟨v, b, id, shares, flies⟩ := connects.flies_at orderly (List.append_nil during).symm
  obtain ⟨ahead, ready⟩ := (reachable.steps during).lands ending flies (shares ▸ connects.shares)
    (id ▸ connects.aloft) (id ▸ connects.lands) waits place
  have started := grows.subset ((reachable.steps during).registered.started waits)
  refine (ready.steps ((reachable.steps during).step ending) started boards undisturbed).imp_left ?_
  rintro ⟨ahead, ready⟩
  exact ⟨ahead, ready, (later'.log_steps after).subset started⟩

/-- Sharing the flight is exact. A call that has waited and now has the lock takes over a result and
does nothing else exactly if the last flight serves it, and flies itself otherwise. So whoever comes
while a handshake or a connect is under way that ends connected, and is not disturbed, does nothing
but start and return the shared result, and has returned once everybody in line has gone on. -/
theorem sharing_is_exact (reachable : w.Reachable) :
    (∀ t seen, w.Has t → t.place = .flightTurn seen → t.call.boards = true →
        w.flight.lock.holder = some t.id →
        let w' := w.step (.wake t.id)
        (w.Serves t ↔ w'.log = w.log ++ [.returned t.id (.ok t.call.sharedValue)] ∧
            w'.session = w.session) ∧
          (¬w.Serves t ↔ w' = w.embark t ∧ ∃ notes, w'.log = w.log ++ .boarded t.id :: notes)) ∧
      ∀ t during ending, w.Connects t during ending →
        ∀ earlier call publishes later, during = earlier ++ .start call publishes :: later →
          call.boards = true →
          let id := (w.steps earlier).nextId
          ∀ after, ((w.steps during).step ending).Undisturbed id after →
            let w' := ((w.steps during).step ending).steps after
            (own id w'.log = [.started id call] ∨
                own id w'.log = [.started id call, .returned id (.ok call.sharedValue)]) ∧
              own id (w'.steps (w'.flight.lock.line.map .wake)).log =
                [.started id call, .returned id (.ok call.sharedValue)] := by
  constructor
  · intro t seen has place boards holds
    have orderly := reachable.orderly
    have other := Call.other_of_boards boards
    rw [← isServed_iff_serves reachable has place boards]
    cases served : w.isServed seen with
    | true =>
      have moved := wake_of_served orderly has place holds served
      rw [Session.concluded_of_other _ _ other, Session.told_of_other _ _ other] at moved
      simp [moved.log, moved.session]
    | false =>
      obtain ⟨same, notes, log⟩ := wake_of_unserved orderly has place holds served
      refine ⟨⟨nofun, fun alone => ?_⟩, fun _ => ⟨same, notes, log⟩, fun _ => nofun⟩
      simp [log] at alone
  · intro t during ending connects earlier call publishes later split boards id after undisturbed
    have orderly := ((reachable.orderly.steps during).step ending).steps after
    have reachable' := ((reachable.steps during).step ending).steps after
    rcases connects.serves reachable split boards undisturbed with ⟨ahead, ready, started⟩ | shared
    · refine ⟨.inl (ready.own reachable' started boards), ?_⟩
      obtain ⟨behind, line⟩ := ready.line
      have shared := ready.wakes reachable' started boards
      rw [← line, List.map_append, steps_append]
      exact (shared.steps (orderly.steps _) _).2
    · exact ⟨.inr shared.2, (shared.steps orderly _).2⟩

/-- A check and a connect that come during a handshake: the check is served, and then the connect. -/
theorem check_and_connect_share :
    let run (actions : List Action) : World MemoryStore :=
      (ofSession (Session.create ⟨"", "", ""⟩ true ⟨none⟩)).steps actions
    let first : List Action := [.start .handshake false, .answer 0 .account (.ok "a")]
    let during : List Action := [.start .check false,
      .answer 0 .issue (.ok { token := some "t", account := some "a", nonce := some "n" }),
      .start .connect false,
      .answer 0 .signMessage (.ok ⟨true, some { message := "m", nonce := "n", signature := [] }⟩),
      .answer 0 .publicKey (.ok "k")]
    let ending : Action := .answer 0 .verify (.ok { verified := true })
    (run (first ++ during ++ [ending])).Serves ⟨1, .check, false, .flightTurn 0⟩ ∧
      (run first).Connects ⟨0, .handshake, false, .asking (.issue (.withAccount "a"))⟩
        during ending ∧
      own 2 (run (first ++ during ++ [ending, .wake 1, .wake 2])).log =
        [.started 2 .connect, .returned 2 (.ok (.flag true))] := by
  intro run first during ending
  have reachable (actions : List Action) : (run actions).Reachable := ⟨_, _, _, _, rfl⟩
  have append (before after : List Action) : run (before ++ after) = (run before).steps after :=
    steps_append _ before after
  have served := (sharing_is_exact (reachable (first ++ during ++ [ending]))).1
    ⟨1, .check, false, .flightTurn 0⟩ 0 rfl rfl rfl rfl
  have ended : ((run first).steps during).step ending = run (first ++ during ++ [ending]) := by
    rw [append, append, steps_singleton]
  have connects : (run first).Connects ⟨0, .handshake, false, .asking (.issue (.withAccount "a"))⟩
      during ending := by
    refine ⟨⟨_, rfl, rfl, rfl⟩, rfl, ?_, ?_⟩
    · rw [← append, ← mem_landings, show landings (run (first ++ during)).log = [] from rfl]
      exact List.not_mem_nil
    · rw [ended, ← mem_landings,
        show landings (run (first ++ during ++ [ending])).log = [(0, true)] from rfl]
      exact List.mem_singleton.mpr rfl
  refine ⟨served.1.mpr ⟨rfl, rfl⟩, connects, ?_⟩
  have serves := (sharing_is_exact (reachable first)).2 _ during ending connects (during.take 2)
    .connect false (during.drop 3) rfl rfl [.wake 1]
  rw [ended, ← append, ← append, show (run (first ++ during.take 2)).nextId = 2 from rfl] at serves
  have undisturbed : (run (first ++ during ++ [ending])).Undisturbed 2 [.wake 1] := by
    constructor
    · intro dropped
      have mine : .dropped 2 ∈ own 2 _ := mem_own dropped
      rw [← append, show own 2 (run (first ++ during ++ [ending] ++ [.wake 1])).log =
        [.started 2 .connect] from rfl] at mine
      simp at mine
    · rintro earlier action later split - ⟨_, gone, _⟩
      obtain ⟨rfl, only⟩ | ⟨_, _, none⟩ := List.cons_eq_append_iff.mp split
      · obtain ⟨rfl, _⟩ := List.cons.inj only
        have stays : (run (first ++ during ++ [ending] ++ [.wake 1])).session.state.connected = true :=
          rfl
        rw [append, steps_singleton] at stays
        exact absurd (gone.symm.trans stays) Bool.false_ne_true
      · simp at none
  have line : (run (first ++ during ++ [ending] ++ [.wake 1])).flight.lock.line = [2] := rfl
  have shared := (serves undisturbed).2
  rw [line, ← append] at shared
  exact shared

end WalletSession.World
