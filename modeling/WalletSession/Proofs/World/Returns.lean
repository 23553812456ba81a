import WalletSession.Proofs.World.Register

/-! How a call comes to what it returns: at the end of a stretch of its own, by taking over the result
of a flight before, or because startup is over. -/
namespace WalletSession.World

variable {σ : Type} [TokenStore σ]

inductive Returns (w w' : World σ) (t : Task) : List Note → Except AuthError Value → Prop
  | ends {occasion : Occasion} {lock : Lock} {notes : List Note} {value : Except AuthError Value}
      {s : Session σ} (comes : Comes w t occasion lock notes)
      (turn : Session.Turn t.call w.session occasion (value.map fun v => .stop (.finish v)) s)
      (moved : Moved w t lock none (s.rested.concluded t.call value)
        (notes ++ s.deeds.map (.did t.id) ++ farewell t lock s.rested value) w')
      (performed : w.session.perform (occasion.work t.call) =
        (value.map fun v => .stop (.finish v), s)) :
      Returns w w' t (notes ++ s.deeds.map (.did t.id) ++ farewell t lock s.rested value)
        ((s.rested.concluded t.call value).told value t.call)
  | shares {seen : Nat} (has : w.Has t) (place : t.place = .flightTurn seen)
      (holds : w.flight.lock.holder = some t.id) (served : w.isServed seen = true)
      (moved : Moved w t w.flight.lock none (w.session.concluded t.call (.ok t.call.sharedValue))
        [.returned t.id ((w.session.concluded t.call (.ok t.call.sharedValue)).told
          (.ok t.call.sharedValue) t.call)] w') :
      Returns w w' t
        [.returned t.id ((w.session.concluded t.call (.ok t.call.sharedValue)).told
          (.ok t.call.sharedValue) t.call)]
        ((w.session.concluded t.call (.ok t.call.sharedValue)).told (.ok t.call.sharedValue) t.call)
  | observes {notes : List Note} (comes : Comes w t .start w.flight.lock notes)
      (moved : Moved w t w.flight.lock none w.session
        (notes ++ [.returned t.id (.ok (.snapshot w.session.state.snapshot))]) w')
      (only : t.call = .observe) :
      Returns w w' t (notes ++ [.returned t.id (.ok (.snapshot w.session.state.snapshot))])
        (.ok (.snapshot w.session.state.snapshot))

variable {w w' : World σ} {t : Task} {lock : Lock} {occasion : Occasion} {notes : List Note}
  {s : Session σ} {number : Nat} {result : Except AuthError Value}

omit [TokenStore σ] in
theorem told_of_farewell {value : Except AuthError Value}
    (told : .returned number result ∈ farewell t lock s value) :
    number = t.id ∧ result = (s.concluded t.call value).told value t.call := by
  rcases List.mem_append.mp told with landed | returned
  · unfold landing at landed
    split at landed <;> simp at landed
  · exact Note.returned.inj (List.mem_singleton.mp returned)

theorem Comes.untold (comes : Comes w t occasion lock notes) : .returned number result ∉ notes :=
  fun told => Bool.false_ne_true (comes.ongoing told).symm

/-- Who returns in a stretch has come to the end of it. -/
theorem Comes.told {ended : Except AuthError Move} (comes : Comes w t occasion lock notes)
    (told : .returned number result ∈
      notes ++ s.deeds.map (.did t.id) ++ closing t lock s.rested ended) :
    number = t.id ∧ ∃ value : Except AuthError Value,
      ended = value.map (fun v => .stop (.finish v)) ∧
        result = (s.rested.concluded t.call value).told value t.call := by
  simp only [List.mem_append, List.mem_map, reduceCtorEq, and_false, exists_false, or_false] at told
  have closed := told.resolve_left comes.untold
  match ended with
  | .ok (.stop (.wait a)) => cases List.mem_singleton.mp closed
  | .ok .board => contradiction
  | .ok (.stop (.finish v)) =>
    obtain ⟨same, value⟩ := told_of_farewell closed
    exact ⟨same, .ok v, rfl, value⟩
  | .error e =>
    obtain ⟨same, value⟩ := told_of_farewell closed
    exact ⟨same, .error e, rfl, value⟩

theorem Moves.returns {id : Nat} {call : Call} (moves : Moves w w' id) (orderly : w.Orderly)
    (registered : w.Registered) (log : w'.log = w.log ++ notes)
    (told : .returned number result ∈ notes) (started : .started number call ∈ w'.log) :
    ∃ t, t.id = number ∧ t.call = call ∧ Returns w w' t notes result := by
  have registered' := moves.registered orderly registered
  cases moves with
  | idle same =>
    obtain rfl : notes = [] := by simpa [same] using log
    contradiction
  | @turns t occasion lock now ended s comes turn stops moved performed =>
    obtain rfl := List.append_cancel_left (log.symm.trans moved.log)
    obtain ⟨rfl, value, rfl, rfl⟩ := comes.told told
    have known := registered.lists_turned orderly comes moved.log
    refine ⟨t, rfl, registered'.once known started, ?_⟩
    cases value with
    | ok v => exact .ends comes turn moved performed
    | error e => exact .ends comes turn moved performed
  | @shares t seen has place holds served moved =>
    obtain rfl := List.append_cancel_left (log.symm.trans moved.log)
    obtain ⟨rfl, rfl⟩ := Note.returned.inj (List.mem_singleton.mp told)
    have known := moved.log ▸ List.mem_append_left _ (registered.started has)
    exact ⟨t, rfl, registered'.once known started, .shares has place holds served moved⟩
  | @observes t now comes moved only =>
    obtain rfl := List.append_cancel_left (log.symm.trans moved.log)
    have last := (List.mem_append.mp told).resolve_left comes.untold
    obtain ⟨rfl, rfl⟩ := Note.returned.inj (List.mem_singleton.mp last)
    have known : .started t.id t.call ∈ w'.log := by
      rw [moved.log, ← List.append_assoc]
      exact List.mem_append_left _ (registered.lists orderly comes)
    exact ⟨t, rfl, registered'.once known started, .observes comes moved only⟩
  | queues comes turn moved =>
    obtain rfl := List.append_cancel_left (log.symm.trans moved.log)
    exact absurd told comes.untold
  | waits number only moved =>
    obtain rfl := List.append_cancel_left (log.symm.trans moved.log)
    simp at told
  | drops has moved =>
    obtain rfl := List.append_cancel_left (log.symm.trans moved.log)
    unfold parting landing at told
    split at told <;> simp at told

end WalletSession.World
