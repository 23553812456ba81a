import WalletSession.Proofs.World.Tally

/-! Calls that wait for the single flight. A call in line stays there until the lock is its own or it
is dropped, and the history shows when it came; whoever is gone is gone for good. -/
namespace WalletSession

/-- The notes of one call. -/
def own (id : Nat) (log : List Note) : List Note := log.filter (·.id == id)

section Own

variable {id : Nat} {first second : List Note}

@[simp] theorem own_append : own id (first ++ second) = own id first ++ own id second :=
  List.filter_append ..

theorem mem_own {n : Note} (member : n ∈ first) : n ∈ own n.id first :=
  List.mem_filter.mpr ⟨member, by simp⟩

theorem own_others (others : ∀ n ∈ first, n.id ≠ id) : own id first = [] := by
  simpa [own] using others

theorem own_mine (mine : ∀ n ∈ first, n.id = id) : own id first = first :=
  List.filter_eq_self.mpr (by simpa using mine)

section Filter

variable {p : Note → Bool}

/-- Other calls have no part in what a call notes of one kind. -/
theorem filter_own_others (others : ∀ n ∈ first, n.id ≠ id) : (own id first).filter p = [] := by
  rw [own_others others, List.filter_nil]

theorem filter_own_quiet (quiet : ∀ n ∈ first, p n = false) : (own id first).filter p = [] := by
  refine List.filter_eq_nil_iff.mpr fun n member => ?_
  simp [quiet n (List.mem_filter.mp member).1]

theorem filter_own_singleton {n : Note} (mine : n.id = id) :
    (own id [n]).filter p = if p n then [n] else [] := by
  unfold own
  rw [List.filter_cons_of_pos (by simp [mine]), List.filter_nil, List.filter_cons, List.filter_nil]

end Filter

end Own

/-- The call came when so many flights had ended, and nothing has happened to it since. -/
def Arrived (log : List Note) (t : Task) (seen : Nat) : Prop :=
  ∃ before since, log = before ++ .started t.id t.call :: since ∧ (landings before).length = seen ∧
    ∀ n ∈ before ++ since, n.id ≠ t.id

section Arrived

variable {log notes : List Note} {t : Task} {seen : Nat}

theorem Arrived.append (arrived : Arrived log t seen) (others : ∀ n ∈ notes, n.id ≠ t.id) :
    Arrived (log ++ notes) t seen := by
  obtain ⟨before, since, rfl, count, only⟩ := arrived
  refine ⟨before, since ++ notes, by simp, count, fun n member => ?_⟩
  rw [← List.append_assoc] at member
  exact (List.mem_append.mp member).elim (only n) (others n)

theorem Arrived.own (arrived : Arrived log t seen) : own t.id log = [.started t.id t.call] := by
  obtain ⟨before, since, rfl, _, only⟩ := arrived
  have quiet := own_others only
  rw [own_append, List.append_eq_nil_iff] at quiet
  rw [own_append, quiet.1, List.nil_append]
  unfold WalletSession.own at quiet ⊢
  rw [List.filter_cons_of_pos (by simp [Note.id]), quiet.2]

end Arrived

theorem Call.other_of_boards {call : Call} (boards : call.boards = true) :
    call.isStartup = false := by
  cases call <;> first | rfl | contradiction

namespace World

variable {σ : Type} {w w' : World σ} {t u : Task} {a : Await} {occasion : Occasion} {lock : Lock}
  {notes : List Note} {place : Option Place} {s : Session σ} {seen id : Nat}

/-- A call that waits for the flight is in its line. -/
structure Lined (w : World σ) (t : Task) (seen : Nat) : Prop where
  lined : t.id ∈ w.flight.lock.line
  before : seen ≤ w.flight.completed
  arrived (boards : t.call.boards = true) : Arrived w.log t seen

theorem Lined.moved_other (waits : w.Lined u seen) (moved : Moved w t lock place s notes w')
    (respects : Respects w t lock place s notes) (other : u.id ≠ t.id) : w'.Lined u seen where
  lined := by
    have lined := (respects.joins.line other).mpr waits.lined
    rw [moved.lock]
    split
    · exact lined
    · rw [respects.joins.orderly.line_leave]
      exact List.mem_filter.mpr ⟨lined, by simpa using other⟩
  before := by
    have counted := Flight.after_completed notes w.flight t.call
    rw [moved.flight]
    exact Nat.le_trans waits.before (counted ▸ Nat.le_add_right ..)
  arrived boards := by
    rw [moved.log]
    exact (waits.arrived boards).append fun n member => respects.mine member ▸ Ne.symm other

/-- Whoever moves under the number of a call that is there is this call. -/
theorem Orderly.mover (orderly : w.Orderly) (known : t.id = w.nextId ∨ w.Has t) (has : w.Has u)
    (same : u.id = t.id) : u = t := by
  have number := orderly.number has
  exact has.unique (known.resolve_left (by omega)) same

/-- The call is over, and its number is not given out again. -/
def Gone (w : World σ) (id : Nat) : Prop := id < w.nextId ∧ w.task? id = none

/-- Nobody moves under the number of a call that is over. -/
theorem Gone.elsewhere (gone : w.Gone id) (known : t.id = w.nextId ∨ w.Has t) : id ≠ t.id := by
  rintro rfl
  obtain ⟨number, none⟩ := gone
  rcases known with fresh | has
  · omega
  · cases none.symm.trans has

theorem Moved.gone (moved : Moved w t lock none s notes w') : w'.Gone t.id := by
  refine ⟨?_, by rw [moved.tasks, if_pos rfl, Option.map_none]⟩
  rw [moved.nextId]
  exact Nat.le_max_right ..

variable [TokenStore σ]

/-- A call that waits for its turn comes only with it. -/
theorem Comes.called (comes : Comes w t occasion lock notes) (orderly : w.Orderly) (has : w.Has t)
    (place : t.place = .flightTurn seen) :
    occasion = .flight ∧ w.flight.lock.holder = some t.id ∧ w.isServed seen = false := by
  induction comes with
  | fresh number =>
    have := orderly.number has
    omega
  | roused _ other | answered _ other => cases other.symm.trans place
  | boards _ turn _ ih =>
    have ashore := turn.board_ashore
    rw [ih.1] at ashore
    contradiction
  | isCalled _ same holds unserved =>
    cases same.symm.trans place
    exact ⟨rfl, holds, unserved⟩

/-- Who joins the line has just started, unless it runs startup. -/
theorem Comes.joins_fresh (comes : Comes w t occasion lock notes)
    (orderly : w.Orderly) (turn : Session.Turn t.call w.session occasion (.ok .board) w.session)
    (boards : t.call.boards = true) : t.id = w.nextId ∧ notes = [.started t.id t.call] := by
  have other (startup : t.call.isStartup = true) : False := by
    simp [Call.other_of_boards boards] at startup
  cases turn with
  | boards =>
    cases comes with
    | fresh number => exact ⟨number, rfl⟩
    | roused has place =>
      have suits := orderly.suits has
      rw [Task.Suits, place] at suits
      exact (other (by rw [suits, Call.isStartup])).elim
  | ready =>
    cases comes with
    | answered has place =>
      have suits := orderly.suits has
      rw [Task.Suits, place] at suits
      exact (other suits.1).elim

theorem Moves.lined (moves : Moves w w' id) (orderly : w.Orderly) (tallied : w.Tallied)
    (lined : ∀ u seen, w.Has u → u.place = .flightTurn seen → w.Lined u seen) (has : w'.Has u)
    (place : u.place = .flightTurn seen) : w'.Lined u seen := by
  by_cases same : u.id = id
  · cases moves with
    | idle same =>
      subst same
      exact lined u seen has place
    | turns comes turn stops moved =>
      obtain ⟨p, goes, rfl⟩ := moved.has_same has same
      obtain ⟨a, _, rfl⟩ := rest_eq_some goes
      cases place
    | @queues t occasion notes comes turn moved =>
      obtain ⟨p, goes, rfl⟩ := moved.has_same has same
      cases goes
      cases place
      have joins := comes.ashore orderly turn.board_ashore
      have unlanded := landings_eq_nil fun _ => comes.unlanded
      refine ⟨?_, ?_, fun boards => ?_⟩
      · rw [moved.lock, Option.isSome_some, if_pos rfl, orderly.lock.line_arrive]
        exact List.mem_append_right _ (List.mem_singleton.mpr rfl)
      · exact Nat.le_of_eq (by rw [moved.flight, Flight.after_quiet _ _ unlanded])
      · obtain ⟨number, rfl⟩ := comes.joins_fresh orderly turn boards
        refine ⟨w.log, [], moved.log, tallied.completed.symm, fun n member => ?_⟩
        rw [List.append_nil] at member
        exact Nat.ne_of_lt (number ▸ orderly.noted member)
    | waits number only moved =>
      obtain ⟨p, goes, rfl⟩ := moved.has_same has same
      cases goes
      cases place
    | shares has' place' holds served moved | drops has' moved | observes comes moved =>
      obtain ⟨p, goes, _⟩ := moved.has_same has same
      contradiction
  · rcases moves.respects orderly with idle | ⟨t, _, _, _, _, rfl, moved, respects⟩
    · subst idle
      exact lined u seen has place
    · exact (lined u seen ((moved.has_other same).mp has) place).moved_other moved respects same

theorem Reachable.lined (reachable : w.Reachable) (has : w.Has u)
    (place : u.place = .flightTurn seen) : w.Lined u seen :=
  reachable.stepwise
    (motive := fun w => ∀ u seen, w.Has u → u.place = .flightTurn seen → w.Lined u seen)
    (fun _ _ _ _ _ has => nomatch has)
    (fun _ action reachable lined _ _ => (step_moves reachable.orderly action).lined
      reachable.orderly reachable.tallied lined)
    u seen has place

/-- Until the lock is its own, a call in line can only be dropped. -/
theorem Moves.stays_lined (moves : Moves w w' id) (orderly : w.Orderly) (has : w.Has t)
    (place : t.place = .flightTurn seen) (elsewhere : w.flight.lock.holder ≠ some t.id) :
    w'.Has t ∨ .dropped t.id ∈ w'.log := by
  by_cases same : t.id = id
  · cases moves with
    | idle same => exact .inl (same ▸ has)
    | turns comes =>
      obtain rfl := orderly.mover comes.known has same
      exact absurd (comes.called orderly has place).2.1 elsewhere
    | queues comes turn =>
      obtain rfl := orderly.mover comes.known has same
      have ashore := turn.board_ashore
      rw [(comes.called orderly has place).1] at ashore
      contradiction
    | shares other _ holds => exact absurd (same ▸ holds) elsewhere
    | waits number =>
      have := orderly.number has
      omega
    | observes comes =>
      obtain rfl := orderly.mover comes.known has same
      cases (comes.called orderly has place).1
    | drops other moved =>
      rw [moved.log, same]
      exact .inr (List.mem_append_right _ List.mem_cons_self)
  · rcases moves.respects orderly with idle | ⟨u, _, _, _, _, rfl, moved, _⟩
    · exact .inl (idle ▸ has)
    · exact .inl ((moved.has_other same).mpr has)

/-- Whoever flies goes on flying or is gone. -/
theorem Moves.flies (moves : Moves w w' id) (orderly : w.Orderly) (flies : w.Flies t a) :
    (∃ u b, u.id = t.id ∧ u.call = t.call ∧ w'.Flies u b) ∨ w'.Gone t.id := by
  obtain ⟨has, place, aboard⟩ := flies
  have holds := orderly.aboard has place aboard
  by_cases same : t.id = id
  · cases moves with
    | idle same => exact .inl ⟨t, a, rfl, rfl, same ▸ ⟨has, place, aboard⟩⟩
    | @turns _ _ _ _ result _ comes turn stops moved =>
      obtain rfl := orderly.mover comes.known has same
      obtain ⟨reply, rfl, _⟩ := comes.answers orderly has place aboard
      match result with
      | .ok (.stop (.wait next)) =>
        refine .inl ⟨{ t with place := .asking next }, next, rfl, rfl, ?_, rfl, ?_⟩
        · rw [Has, moved.tasks, if_pos rfl]
          rfl
        · rw [turn.aboard, Occasion.isAshore, aboard]
          rfl
      | .ok (.stop (.finish v)) | .error e => exact .inr moved.gone
      | .ok .board => exact absurd rfl stops
    | queues comes turn =>
      obtain rfl := orderly.mover comes.known has same
      exact absurd (Lock.mem_line.mpr (.inl holds)) (comes.ashore orderly turn.board_ashore)
    | shares other waiting =>
      obtain rfl := has.unique other same
      cases waiting.symm.trans place
    | waits number =>
      have := orderly.number has
      omega
    | observes comes =>
      obtain rfl := orderly.mover comes.known has same
      exact absurd (Lock.mem_line.mpr (.inl holds)) (comes.ashore orderly rfl)
    | drops other moved => exact .inr (same ▸ moved.gone)
  · rcases moves.respects orderly with idle | ⟨u, _, _, _, _, rfl, moved, _⟩
    · exact .inl ⟨t, a, rfl, rfl, idle ▸ ⟨has, place, aboard⟩⟩
    · exact .inl ⟨t, a, rfl, rfl, (moved.has_other same).mpr has, place, aboard⟩

theorem Moves.gone {mover : Nat} (moves : Moves w w' mover) (orderly : w.Orderly) (gone : w.Gone id) :
    w'.Gone id ∧ ∃ notes, w'.log = w.log ++ notes ∧ ∀ n ∈ notes, n.id ≠ id := by
  have settle {t : Task} {lock : Lock} {place : Option Place} {s : Session σ} {notes : List Note}
      (known : t.id = w.nextId ∨ w.Has t) (moved : Moved w t lock place s notes w')
      (respects : Respects w t lock place s notes) :
      w'.Gone id ∧ ∃ notes, w'.log = w.log ++ notes ∧ ∀ n ∈ notes, n.id ≠ id := by
    have other := gone.elsewhere known
    refine ⟨⟨?_, ?_⟩, notes, moved.log, fun n member => respects.mine member ▸ Ne.symm other⟩
    · rw [moved.nextId]
      exact Nat.lt_of_lt_of_le gone.1 (Nat.le_max_left ..)
    · rw [moved.tasks, if_neg other, gone.2]
  cases moves.sorts orderly with
  | idle same => exact ⟨same ▸ gone, [], by simp [same], by simp⟩
  | turns comes turn moved => exact settle comes.known moved (orderly.turns comes turn)
  | quiet moved respects quiet => exact settle quiet.known moved respects

theorem Gone.steps (gone : w.Gone id) (orderly : w.Orderly) (actions : List Action) :
    (w.steps actions).Gone id ∧
      ∃ notes, (w.steps actions).log = w.log ++ notes ∧ ∀ n ∈ notes, n.id ≠ id := by
  induction actions generalizing w with
  | nil => exact ⟨gone, [], (List.append_nil _).symm, by simp⟩
  | cons action actions ih =>
    obtain ⟨gone, notes, log, others⟩ := (step_moves orderly action).gone orderly gone
    obtain ⟨gone, later, log', others'⟩ := ih gone (orderly.step action)
    refine ⟨gone, notes ++ later, by rw [steps_cons, log', log, List.append_assoc], ?_⟩
    exact fun n member => (List.mem_append.mp member).elim (others n) (others' n)

/-- Whoever flies still flies later, or is gone. -/
theorem Orderly.flies_steps (orderly : w.Orderly) (flies : w.Flies t a) (actions : List Action) :
    (∃ u b, u.id = t.id ∧ u.call = t.call ∧ (w.steps actions).Flies u b) ∨
      (w.steps actions).Gone t.id := by
  induction actions generalizing w t a with
  | nil => exact .inl ⟨t, a, rfl, rfl, flies⟩
  | cons action actions ih =>
    rcases (step_moves orderly action).flies orderly flies with ⟨u, b, id, call, flies⟩ | gone
    · have later := ih (orderly.step action) flies
      rwa [id, call] at later
    · exact .inr (gone.steps (orderly.step action) actions).1

/-- A call in line still waits there later, if the lock was never its own and nobody dropped it. -/
theorem Orderly.lined_steps (orderly : w.Orderly) (has : w.Has t) (place : t.place = .flightTurn seen)
    (actions : List Action)
    (elsewhere : ∀ earlier later, actions = earlier ++ later →
      (w.steps earlier).flight.lock.holder ≠ some t.id)
    (undropped : .dropped t.id ∉ (w.steps actions).log) : (w.steps actions).Has t := by
  induction actions generalizing w with
  | nil => exact has
  | cons action actions ih =>
    have next := (step_moves orderly action).stays_lined orderly has place (elsewhere [] _ rfl)
    have grows := (orderly.step action).log_steps actions
    refine ih (orderly.step action) (next.resolve_right fun dropped => undropped (grows.subset dropped))
      (fun earlier later split => ?_) undropped
    exact elsewhere (action :: earlier) later (congrArg (action :: ·) split)

end World

end WalletSession
