import WalletSession.Proofs.World.Orderly

/-! A disconnect resets the phase under whatever call holds the flight. A call that had taken an edge
by then is muted: the others may go on around it, but it can only fail, and leaves the session as it
finds it. -/
namespace WalletSession

variable {σ : Type} [TokenStore σ]

namespace World

/-- The call is over, or waits for an answer that a reset has overtaken. -/
structure Muted (w : World σ) (id : Nat) : Prop where
  number : id < w.nextId
  overtaken {t : Task} (has : w.Has t) (mine : t.id = id) :
    w.session.state.phase = .unauthenticated ∧
      ∃ a, t.place = .asking a ∧ a.phase?.isSome = true

variable {w w' : World σ} {t : Task} {id : Nat} {occasion : Occasion} {lock : Lock}
  {notes : List Note}

omit [TokenStore σ] in
theorem Muted.moved {place : Option Place} {s : Session σ} (muted : w.Muted id)
    (orderly : w.Orderly) (moved : Moved w t lock place s notes w')
    (respects : Respects w t lock place s notes)
    (own : t.id = id → ∀ p, place = some p →
      s.state.phase = .unauthenticated ∧ ∃ a, p = .asking a ∧ a.phase?.isSome = true) :
    w'.Muted id where
  number := by
    rw [moved.nextId]
    have := muted.number
    omega
  overtaken {u} has mine := by
    rw [moved.session]
    rcases moved.has_cases has with ⟨p, goes, rfl⟩ | ⟨other, had⟩
    · exact own mine p goes
    · obtain ⟨reset, a, place, edge⟩ := muted.overtaken had mine
      refine ⟨?_, a, place, edge⟩
      rcases orderly.phase_other respects had other place edge with kept | again
      · rw [kept, reset]
      · exact again

omit [TokenStore σ] in
theorem Muted.holds (muted : w.Muted t.id) (orderly : w.Orderly) (has : w.Has t) :
    w.flight.lock.holder = some t.id := by
  obtain ⟨_, a, place, edge⟩ := muted.overtaken has rfl
  exact orderly.aboard has place (Await.isAboard_of_edge edge)

/-- What a muted call does leaves no trace in the session. -/
structure Leaves (w : World σ) (notes : List Note) (w' : World σ) : Prop where
  token : w'.session.state.token = w.session.state.token
  store : w'.session.store = w.session.store
  connected : w'.session.state.connected = true → w.session.state.connected = true
  log : w'.log = w.log ++ notes
  undone (id : Nat) (deed : Deed) : .did id deed ∉ notes
  unsent (id : Nat) (submission : SignatureSubmission) : .asked id (.verify submission) ∉ notes

theorem Muted.turns {result : Except AuthError Move} {s : Session σ} (muted : w.Muted t.id)
    (orderly : w.Orderly) (comes : Comes w t occasion lock notes)
    (turn : Session.Turn t.call w.session occasion result s)
    (moved : Moved w t lock (rest result) (settled s.rested t.call result)
      (notes ++ s.deeds.map (.did t.id) ++ closing t lock s.rested result) w') :
    w'.Muted t.id ∧ ∃ notes, Leaves w notes w' := by
  have has : w.Has t := comes.known.resolve_left (Nat.ne_of_lt muted.number)
  obtain ⟨reset, a, place, edge⟩ := muted.overtaken has rfl
  have respects := orderly.turns comes turn
  obtain ⟨reply, rfl, rfl⟩ := comes.answers orderly has place (Await.isAboard_of_edge edge)
  obtain ⟨rfl, ended⟩ := turn.late reset edge
  refine ⟨muted.moved orderly moved respects fun _ p goes => ?_, _,
    { token := ?_, store := ?_, connected := fun now => ?_, log := moved.log, undone := ?_,
      unsent := ?_ }⟩
  · obtain ⟨_, rfl, rfl⟩ := rest_eq_some goes
    rcases ended with ⟨e, same⟩ | ⟨signed, same⟩ <;> cases same
    exact ⟨reset, _, rfl, rfl⟩
  · simp [moved.session]
  · simp [moved.session]
  · rw [moved.session] at now
    rcases ended with ⟨e, rfl⟩ | ⟨signed, rfl⟩
    · exact Session.connected_of_concluded (s := w.session.rested) (by simp [startupSucceeded]) now
    · exact now
  · intro other deed
    simp [orderly.rested, closing_undone]
  · intro other submission
    simp only [orderly.rested, List.map_nil, List.append_nil, List.mem_append,
      List.mem_singleton, reduceCtorEq, false_or]
    rcases ended with ⟨e, rfl⟩ | ⟨signed, rfl⟩
    · exact fun member => nomatch farewell_final member
    · simp [closing, Await.request]

theorem Moves.muted (moves : Moves w w' id) (orderly : w.Orderly) (muted : w.Muted id) :
    w'.Muted id ∧ ∃ notes, Leaves w notes w' := by
  cases moves.sorts orderly with
  | idle same =>
    subst same
    exact ⟨muted, [], rfl, rfl, fun now => now, (List.append_nil _).symm,
      fun _ _ => List.not_mem_nil, fun _ _ => List.not_mem_nil⟩
  | turns comes turn moved => exact muted.turns orderly comes turn moved
  | quiet moved respects quiet =>
    refine ⟨muted.moved orderly moved respects fun _ p goes => ?_, _, ?_, ?_, ?_, moved.log,
      quiet.undone, fun _ _ => quiet.unasked _ _⟩
    · have has := quiet.known.resolve_left (Nat.ne_of_lt muted.number)
      have lined := Lock.mem_line.mpr (.inl (muted.holds orderly has))
      exact absurd lined (quiet.ashore (by simp [goes]))
    · rw [moved.session, quiet.token]
    · rw [moved.session, quiet.store]
    · rw [moved.session]
      exact quiet.connected

/-- Nothing that is muted is saved or sent for verification. -/
def Unheard (id : Nat) (notes : List Note) : Prop :=
  (∀ deed, .did id deed ∉ notes) ∧ ∀ submission, .asked id (.verify submission) ∉ notes

omit [TokenStore σ] in
theorem Unheard.nil (id : Nat) : Unheard id [] :=
  ⟨fun _ => List.not_mem_nil, fun _ => List.not_mem_nil⟩

theorem Muted.step (muted : w.Muted id) (orderly : w.Orderly) (action : Action) :
    (w.step action).Muted id ∧ ∃ notes, (w.step action).log = w.log ++ notes ∧ Unheard id notes := by
  have moves := step_moves orderly action
  by_cases own : w.caller action = id
  · rw [own] at moves
    obtain ⟨still, notes, leaves⟩ := moves.muted orderly muted
    exact ⟨still, notes, leaves.log, leaves.undone id, leaves.unsent id⟩
  · rcases moves.respects orderly with same | ⟨t, _, _, _, notes, mine, moved, respects⟩
    · rw [same]
      exact ⟨muted, [], (List.append_nil _).symm, .nil id⟩
    · have other : t.id ≠ id := mine ▸ own
      exact ⟨muted.moved orderly moved respects fun same => absurd same other, notes, moved.log,
        fun _ member => other (respects.mine member).symm,
        fun _ member => other (respects.mine member).symm⟩

theorem Muted.steps (muted : w.Muted id) (orderly : w.Orderly) (actions : List Action) :
    (w.steps actions).Muted id ∧
      ∃ after, (w.steps actions).log = w.log ++ after ∧ Unheard id after := by
  induction actions generalizing w with
  | nil => exact ⟨muted, [], (List.append_nil _).symm, .nil id⟩
  | cons action actions ih =>
    obtain ⟨muted, notes, log, undone, unsent⟩ := muted.step orderly action
    obtain ⟨muted, after, log', undone', unsent'⟩ := ih muted (orderly.step action)
    refine ⟨muted, notes ++ after, by rw [steps_cons, log', log, List.append_assoc], ?_, ?_⟩
    · intro deed
      simp [undone, undone']
    · intro submission
      simp [unsent, unsent']

/-- A disconnect resets the session at once, whoever else is under way. -/
theorem Orderly.disconnects (orderly : w.Orderly) (publishes : Bool) :
    ∃ t a cleared, t.id = w.nextId ∧ a.isAboard = false ∧
      Moved w t w.flight.lock (some (.asking a)) w.session.forgotten.rested
        [.started t.id .disconnect, .did t.id (.cleared cleared), .asked t.id a.request]
        (w.step (.start .disconnect publishes)) := by
  let t : Task := { id := w.nextId, call := .disconnect, publishes, place := .startupTurn }
  let a : Await := if w.session.hasWallet then .walletLogout else .revoke
  have opened := opened_start w (t := t) rfl
  have performed : w.session.perform (Session.begin .disconnect) =
      ((Except.ok (.wait a)).map .stop, w.session.forgotten) := by
    simp only [Session.begin, Session.perform_bind, Session.perform_beginDisconnect,
      Session.perform_pure, Except.map, a]
  have settled := (opened.after w.session.forgotten).settle (.inr (orderly.fresh rfl))
    (fun waits => orderly.ashore_fresh rfl (Lock.mem_line.mpr (.inr waits))) (.ok (.wait a))
  rw [← opened.proceed_eq performed, Session.forgotten_deeds, orderly.rested] at settled
  refine ⟨t, a, _, rfl, ?_, settled⟩
  unfold a
  split <;> rfl

/-- A disconnect mutes a call that waits where an edge has led it, and one that is over. -/
theorem Orderly.mutes (orderly : w.Orderly) (number : id < w.nextId)
    (edges : ∀ t, w.Has t → t.id = id → ∃ a, t.place = .asking a ∧ a.phase?.isSome = true)
    (publishes : Bool) : (w.step (.start .disconnect publishes)).Muted id := by
  obtain ⟨t, a, cleared, fresh, _, moved⟩ := orderly.disconnects publishes
  refine ⟨?_, fun {u} has mine => ?_⟩
  · rw [moved.nextId]
    omega
  · have other : u.id ≠ t.id := by omega
    rw [moved.session]
    exact ⟨rfl, edges u ((moved.has_other other).mp has) mine⟩

end World

end WalletSession
