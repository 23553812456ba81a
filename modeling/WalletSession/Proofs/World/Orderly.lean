import WalletSession.Proofs.World.Moves

/-! Every world that a session gets into is orderly. One lemma says what a move has to respect for
that, and every kind of move respects it. -/
namespace WalletSession

variable {σ : Type}

namespace World

section Moved

variable {w w' : World σ} {t u : Task} {lock : Lock} {place : Option Place} {s : Session σ}
  {notes : List Note}

theorem Moved.has_other (moved : Moved w t lock place s notes w') (other : u.id ≠ t.id) :
    w'.Has u ↔ w.Has u := by
  rw [Has, moved.tasks, if_neg other, Has]

theorem Moved.has_same (moved : Moved w t lock place s notes w') (has : w'.Has u)
    (same : u.id = t.id) : ∃ p, place = some p ∧ u = { t with place := p } := by
  rw [Has, moved.tasks, if_pos same] at has
  cases place with
  | none => contradiction
  | some p => exact ⟨p, rfl, (Option.some.inj has).symm⟩

/-- Who is there after a move is the call that moved, or was there before. -/
theorem Moved.has_cases (moved : Moved w t lock place s notes w') (has : w'.Has u) :
    (∃ p, place = some p ∧ u = { t with place := p }) ∨ u.id ≠ t.id ∧ w.Has u := by
  by_cases same : u.id = t.id
  · exact .inl (moved.has_same has same)
  · exact .inr ⟨same, (moved.has_other same).mp has⟩

/-- Joining and leaving the line touch nobody else in it. -/
structure Joins (w : World σ) (t : Task) (lock : Lock) : Prop where
  orderly : lock.Orderly
  line {id : Nat} (other : id ≠ t.id) : id ∈ lock.line ↔ id ∈ w.flight.lock.line
  holder {id : Nat} (holds : w.flight.lock.holder = some id) : lock.holder = some id

theorem Orderly.stays (orderly : w.Orderly) (t : Task) : Joins w t w.flight.lock :=
  ⟨orderly.lock, fun _ => Iff.rfl, id⟩

theorem Orderly.arrives (orderly : w.Orderly) (ashore : t.id ∉ w.flight.lock.line) :
    Joins w t (w.flight.lock.arrive t.id) where
  orderly := orderly.lock.arrive ashore
  line other := by simp [orderly.lock.line_arrive, other]
  holder holds := by
    rw [Lock.arrive_taken (by simp [Lock.isFree, holds])]
    exact holds

structure Respects (w : World σ) (t : Task) (lock : Lock) (place : Option Place) (s : Session σ)
    (notes : List Note) : Prop where
  joins : Joins w t lock
  rested : s.deeds = []
  hasWallet : s.hasWallet = w.session.hasWallet
  phase : s.state.phase = w.session.state.phase ∨ s.state.phase = .unauthenticated ∨
    lock.holder = some t.id
  suits {p : Place} (goes : place = some p) : Task.Suits { t with place := p } s
  flies {p : Place} (goes : place = some p) (lined : t.id ∈ lock.line) : p.isFlying = true
  aboard {a : Await} (goes : place = some (.asking a)) (aboard : a.isAboard = true) :
    lock.holder = some t.id
  mine {n : Note} (member : n ∈ notes) : n.id = t.id

theorem Orderly.suits_other (orderly : w.Orderly) (respects : Respects w t lock place s notes)
    (has : w.Has u) (other : u.id ≠ t.id) : u.Suits s := by
  have suits := orderly.suits has
  unfold Task.Suits at suits ⊢
  split
  · simp_all
  · simp_all
  next a place =>
    rw [place] at suits
    obtain ⟨kind, fits, early⟩ := suits
    refine ⟨kind, ?_, respects.hasWallet ▸ early⟩
    rcases respects.phase with same | reset | holds
    · exact same ▸ fits
    · exact reset ▸ .reset a
    · refine .ashore (Bool.eq_false_iff.mpr fun aboard => other ?_) _
      have mine := respects.joins.holder (orderly.aboard has place aboard)
      exact Option.some.inj (mine.symm.trans holds)

/-- A move takes no edge under a call that waits where an edge has led it. -/
theorem Orderly.phase_other (orderly : w.Orderly) (respects : Respects w t lock place s notes)
    (has : w.Has u) (other : u.id ≠ t.id) {a : Await} (asking : u.place = .asking a)
    (edge : a.phase?.isSome = true) :
    s.state.phase = w.session.state.phase ∨ s.state.phase = .unauthenticated := by
  rcases respects.phase with kept | reset | holds
  · exact .inl kept
  · exact .inr reset
  · -- The flight is the other call's, and without it no edge is taken.
    have mine := respects.joins.holder (orderly.aboard has asking (Await.isAboard_of_edge edge))
    exact absurd (Option.some.inj (mine.symm.trans holds)) other

theorem Orderly.moved (orderly : w.Orderly) (moved : Moved w t lock place s notes w')
    (respects : Respects w t lock place s notes) : w'.Orderly where
  rested := by rw [moved.session, respects.rested]
  lock := by
    rw [moved.lock]
    split
    · exact respects.joins.orderly
    · exact respects.joins.orderly.leave
  line {id} lined := by
    rw [moved.lock] at lined
    by_cases same : id = t.id
    · subst same
      cases place with
      | none => simp [respects.joins.orderly.line_leave] at lined
      | some p =>
        refine ⟨{ t with place := p }, rfl, ?_, respects.flies rfl lined⟩
        rw [Has, moved.tasks, if_pos rfl, Option.map_some]
    · have before : id ∈ w.flight.lock.line := by
        rw [← respects.joins.line same]
        cases place with
        | none => exact (by simpa [respects.joins.orderly.line_leave] using lined : _ ∧ _).1
        | some p => exact lined
      obtain ⟨u, rfl, has, flying⟩ := orderly.line before
      exact ⟨u, rfl, (moved.has_other same).mpr has, flying⟩
  aboard {u} has {a} asking aboard := by
    rw [moved.lock]
    rcases moved.has_cases has with ⟨p, rfl, rfl⟩ | ⟨other, had⟩
    · exact respects.aboard (congrArg some asking) aboard
    · have holds := respects.joins.holder (orderly.aboard had asking aboard)
      split
      · exact holds
      · simp [Lock.leave, holds, other]
  suits {u} has := by
    rw [moved.session]
    rcases moved.has_cases has with ⟨p, goes, rfl⟩ | ⟨other, had⟩
    · exact respects.suits goes
    · exact orderly.suits_other respects had other
  number {u} has := by
    rw [moved.nextId]
    by_cases same : u.id = t.id
    · omega
    · have := orderly.number ((moved.has_other same).mp has)
      omega
  noted {n} member := by
    rw [moved.nextId]
    rw [moved.log, List.mem_append] at member
    rcases member with member | member
    · have := orderly.noted member
      omega
    · have := respects.mine member
      omega

end Moved

section Moves

variable [TokenStore σ] {w w' : World σ} {t : Task} {occasion : Occasion} {lock : Lock}
  {notes : List Note}

theorem Comes.joins (comes : Comes w t occasion lock notes) (orderly : w.Orderly) :
    Joins w t lock := by
  cases comes with
  | boards comes turn _ => exact orderly.arrives (comes.ashore orderly turn.board_ashore)
  | _ => exact orderly.stays t

theorem Comes.early (comes : Comes w t occasion lock notes) (orderly : w.Orderly)
    (reply : Except AuthError Bool) (asked : occasion = .answer .connectedWallet reply) :
    w.session.hasWallet = true := by
  subst asked
  cases comes with
  | answered has place _ =>
    have suits := orderly.suits has
    rw [Task.Suits, place] at suits
    exact suits.2.2 rfl

omit [TokenStore σ] in
theorem landing_mine {s : Session σ} {n : Note} (member : n ∈ landing t lock s) : n.id = t.id := by
  unfold landing at member
  split at member <;> simp_all [Note.id]

omit [TokenStore σ] in
theorem farewell_mine {s : Session σ} {result : Except AuthError Value} {n : Note}
    (member : n ∈ farewell t lock s result) : n.id = t.id := by
  rcases List.mem_append.mp member with landed | returned
  · exact landing_mine landed
  · rw [List.mem_singleton.mp returned, Note.id]

omit [TokenStore σ] in
theorem closing_mine {s : Session σ} {result : Except AuthError Move} {n : Note}
    (member : n ∈ closing t lock s result) : n.id = t.id := by
  match result with
  | .ok (.stop (.wait a)) => rw [List.mem_singleton.mp member, Note.id]
  | .ok (.stop (.finish v)) => exact farewell_mine member
  | .ok .board => contradiction
  | .error e => exact farewell_mine member

theorem Orderly.turns {result : Except AuthError Move} {s : Session σ} (orderly : w.Orderly)
    (comes : Comes w t occasion lock notes)
    (turn : Session.Turn t.call w.session occasion result s) :
    Respects w t lock (rest result) (settled s.rested t.call result)
      (notes ++ s.deeds.map (.did t.id) ++ closing t lock s.rested result) where
  joins := comes.joins orderly
  rested := by simp
  hasWallet := by simp [turn.hasWallet]
  phase := by
    simp only [settled_phase, Session.rested_state]
    exact turn.phase.imp_right (Or.imp_right (comes.holds orderly))
  suits {p} goes := by
    obtain ⟨a, rfl, rfl⟩ := rest_eq_some goes
    obtain ⟨kind, fits⟩ := turn.waits (comes.fits orderly)
    exact ⟨kind, fits, fun early => turn.early early (comes.early orderly)⟩
  flies {p} goes lined := by
    obtain ⟨a, rfl, rfl⟩ := rest_eq_some goes
    rw [Place.isFlying, turn.aboard, Bool.not_eq_true', Bool.eq_false_iff]
    intro ashore
    refine comes.ashore orderly ashore ?_
    cases comes with
    | boards | isCalled => contradiction
    | _ => exact lined
  aboard {a} goes aboard := by
    obtain ⟨_, rfl, same⟩ := rest_eq_some goes
    cases same
    exact comes.holds orderly (by simpa [turn.aboard] using aboard)
  mine {n} member := by
    simp only [List.mem_append, List.mem_map] at member
    rcases member with (noted | ⟨_, _, rfl⟩) | closed
    · exact comes.mine noted
    · rfl
    · exact closing_mine closed

omit [TokenStore σ] in
/-- A call may always go, if it leaves the session as it is. -/
theorem Orderly.goes {s : Session σ} (orderly : w.Orderly) (rested : s.deeds = w.session.deeds)
    (hasWallet : s.hasWallet = w.session.hasWallet)
    (phase : s.state.phase = w.session.state.phase) (mine : ∀ n ∈ notes, n.id = t.id) :
    Respects w t w.flight.lock none s notes where
  joins := orderly.stays t
  rested := rested.trans orderly.rested
  hasWallet := hasWallet
  phase := .inl phase
  suits := nofun
  flies := nofun
  aboard := nofun
  mine := mine _

/-- A call goes to a place where it asks nothing, or away, and does no work on the session. -/
structure Quiet (w : World σ) (t : Task) (place : Option Place) (s : Session σ)
    (notes : List Note) : Prop where
  phase : s.state.phase = w.session.state.phase
  token : s.state.token = w.session.state.token
  store : s.store = w.session.store
  connected : s.state.connected = true → w.session.state.connected = true
  undone (id : Nat) (deed : Deed) : .did id deed ∉ notes
  unasked (id : Nat) (request : Request) : .asked id request ∉ notes
  silent (a : Await) : place ≠ some (.asking a)
  known : t.id = w.nextId ∨ w.Has t
  /-- Who goes to such a place comes from elsewhere than the flight. -/
  ashore (goes : place.isSome = true) : t.id ∉ w.flight.lock.line
  /-- Who goes away from a question is dropped. -/
  dropped {a : Await} (has : w.Has t) (asking : t.place = .asking a) (gone : place = none) :
    .dropped t.id ∈ notes

/-- What an action comes to: nothing, a stretch of work, or a move without work. -/
inductive Sorts (w w' : World σ) : Nat → Prop
  | idle {id : Nat} (same : w' = w) : Sorts w w' id
  | turns {t : Task} {occasion : Occasion} {lock : Lock} {notes : List Note}
      {result : Except AuthError Move} {s : Session σ} (comes : Comes w t occasion lock notes)
      (turn : Session.Turn t.call w.session occasion result s)
      (moved : Moved w t lock (rest result) (settled s.rested t.call result)
        (notes ++ s.deeds.map (.did t.id) ++ closing t lock s.rested result) w') :
      Sorts w w' t.id
  | quiet {t : Task} {lock : Lock} {place : Option Place} {s : Session σ} {notes : List Note}
      (moved : Moved w t lock place s notes w') (respects : Respects w t lock place s notes)
      (quiet : Quiet w t place s notes) : Sorts w w' t.id

theorem Moves.sorts {id : Nat} (moves : Moves w w' id) (orderly : w.Orderly) : Sorts w w' id := by
  cases moves with
  | idle same => exact .idle same
  | turns comes turn stops moved => exact .turns comes turn moved
  | queues comes turn moved =>
    have ashore := comes.ashore orderly turn.board_ashore
    refine .quiet moved
      ⟨orderly.arrives ashore, orderly.rested, rfl, .inl rfl, ?_, ?_, by simp, comes.mine⟩
      ⟨rfl, rfl, rfl, id, comes.undone, comes.unasked, by simp, comes.known, fun _ => ashore, by simp⟩
    · rintro _ ⟨⟩
      exact comes.mayFly orderly turn
    · rintro _ ⟨⟩ _
      rfl
  | shares has place holds served moved =>
    have connected : w.session.state.connected = true := by
      unfold isServed at served
      exact (Bool.and_eq_true_iff.mp served).2
    exact .quiet moved
      (orderly.goes (by simp) (by simp) (by simp) (by simp [Note.id]))
      ⟨by simp, by simp, by simp, fun _ => connected, by simp, by simp, by simp, .inr has, by simp,
        fun _ asking => by simp [place] at asking⟩
  | waits number only moved =>
    refine .quiet moved ⟨orderly.stays _, orderly.rested, rfl, .inl rfl, ?_, ?_, by simp,
      by simp [Note.id]⟩
      ⟨rfl, rfl, rfl, id, by simp, by simp, by simp, .inl number,
        fun _ => orderly.ashore_fresh number, by simp⟩
    · rintro _ ⟨⟩
      exact only
    · rintro _ _ lined
      exact absurd lined (orderly.ashore_fresh number)
  | observes comes moved =>
    refine .quiet moved (orderly.goes rfl rfl rfl fun n member => comes.mine_snoc rfl member)
      ⟨rfl, rfl, rfl, id, by simp [comes.undone], by simp [comes.unasked], by simp, comes.known,
        by simp, ?_⟩
    intro a has asking
    cases comes with
    | fresh _ place | roused _ place => simp [place] at asking
  | @drops t has moved =>
    have undone {n : Note} (ongoing : n.isFinal = false) : n ∉ .dropped t.id :: parting w t :=
      fun member => by simp [(parting_final member).2] at ongoing
    exact .quiet moved (orderly.goes rfl rfl rfl fun n member => (parting_final member).1)
      ⟨rfl, rfl, rfl, id, fun _ _ => undone rfl, fun _ _ => undone rfl, by simp, .inr has, by simp,
        fun _ _ _ => List.mem_cons_self⟩

/-- Whatever an action does, at most its own call moves, and with respect for the others. -/
theorem Moves.respects {id : Nat} (moves : Moves w w' id) (orderly : w.Orderly) :
    w' = w ∨ ∃ t lock place s notes, t.id = id ∧ Moved w t lock place s notes w' ∧
      Respects w t lock place s notes := by
  cases moves.sorts orderly with
  | idle same => exact .inl same
  | turns comes turn moved =>
    exact .inr ⟨_, _, _, _, _, rfl, moved, orderly.turns comes turn⟩
  | quiet moved respects _ => exact .inr ⟨_, _, _, _, _, rfl, moved, respects⟩

theorem Orderly.step (orderly : w.Orderly) (action : Action) : (w.step action).Orderly := by
  rcases (step_moves orderly action).respects orderly with same | ⟨_, _, _, _, _, _, moved, respects⟩
  · rwa [same]
  · exact orderly.moved moved respects

/-- A new session with nothing under way, over any store, and everything that it can get into. -/
def Reachable (w : World σ) : Prop :=
  ∃ (chain : ChainConfig) (hasWallet : Bool) (store : σ) (actions : List Action),
    w = (ofSession (Session.create chain hasWallet store)).steps actions

theorem steps_cons (w : World σ) (action : Action) (actions : List Action) :
    w.steps (action :: actions) = (w.step action).steps actions := rfl

theorem steps_singleton (w : World σ) (action : Action) : w.steps [action] = w.step action := rfl

theorem steps_append (w : World σ) (first second : List Action) :
    w.steps (first ++ second) = (w.steps first).steps second := List.foldl_append

theorem steps_induction {motive : World σ → Prop} (step : ∀ w action, motive w → motive (w.step action))
    (start : motive w) (actions : List Action) : motive (w.steps actions) := by
  induction actions generalizing w with
  | nil => exact start
  | cons action actions ih => exact ih (step w action start)

theorem Orderly.create (chain : ChainConfig) (hasWallet : Bool) (store : σ) :
    (ofSession (Session.create chain hasWallet store)).Orderly where
  rested := rfl
  lock := ⟨fun _ => rfl, List.nodup_nil⟩
  line := nofun
  aboard := nofun
  suits := nofun
  number := nofun
  noted := nofun

theorem Orderly.steps (orderly : w.Orderly) (actions : List Action) : (w.steps actions).Orderly :=
  steps_induction (fun _ action orderly => orderly.step action) orderly actions

theorem Reachable.orderly (reachable : Reachable w) : w.Orderly := by
  obtain ⟨chain, hasWallet, store, actions, rfl⟩ := reachable
  exact (Orderly.create chain hasWallet store).steps actions

/-- The history only grows. -/
theorem Orderly.log_steps (orderly : w.Orderly) (actions : List Action) :
    w.log <+: (w.steps actions).log := by
  induction actions generalizing w with
  | nil => exact List.prefix_rfl
  | cons action actions ih =>
    refine List.IsPrefix.trans ?_ (ih (orderly.step action))
    rcases (step_moves orderly action).respects orderly with same | ⟨_, _, _, _, _, _, moved, _⟩
    · exact ⟨[], by rw [same, List.append_nil]⟩
    · exact moved.log ▸ List.prefix_append ..

theorem Reachable.steps (reachable : Reachable w) (actions : List Action) :
    Reachable (w.steps actions) := by
  obtain ⟨chain, hasWallet, store, earlier, rfl⟩ := reachable
  exact ⟨chain, hasWallet, store, earlier ++ actions, (List.foldl_append).symm⟩

theorem Reachable.step (reachable : Reachable w) (action : Action) : Reachable (w.step action) :=
  reachable.steps [action]

/-- What holds of a new session and is kept by every step that it can take. -/
theorem Reachable.stepwise {motive : World σ → Prop} (reachable : Reachable w)
    (start : ∀ chain hasWallet store, motive (ofSession (Session.create chain hasWallet store)))
    (step : ∀ w action, Reachable w → motive w → motive (w.step action)) : motive w := by
  obtain ⟨chain, hasWallet, store, actions, rfl⟩ := reachable
  refine (steps_induction (motive := fun w => Reachable w ∧ motive w) (fun w action both => ?_)
    ⟨⟨chain, hasWallet, store, [], rfl⟩, start chain hasWallet store⟩ actions).2
  exact ⟨both.1.step action, step w action both.1 both.2⟩

/-- Mostly the order of the calls is all that a step has to know. -/
theorem Reachable.induction {motive : World σ → Prop} (reachable : Reachable w)
    (start : ∀ chain hasWallet store, motive (ofSession (Session.create chain hasWallet store)))
    (step : ∀ w action, w.Orderly → motive w → motive (w.step action)) : motive w :=
  reachable.stepwise start fun w action reachable => step w action reachable.orderly

end Moves

end World

end WalletSession
