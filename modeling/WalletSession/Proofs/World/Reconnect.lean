import WalletSession.Proofs.World.Answered

/-! Connecting again when nobody else is about. It always works as long as no call was ever dropped:
whoever takes an edge into a pending phase stays to take the next one. A call that is dropped there
leaves the phase behind, and a session that still has a record is then never checked again. -/
namespace WalletSession.World

variable {σ : Type} {w w' : World σ} {t : Task} {lock : Lock} {notes : List Note}

/-- Somebody waits where the phase says so, or a call was dropped. -/
def Attended (w : World σ) : Prop :=
  w.session.state.phase.isPending = true →
    (∃ t a, w.Has t ∧ t.place = .asking a ∧ a.phase? = some w.session.state.phase) ∨
      ∃ id, .dropped id ∈ w.log

theorem Attended.stays {place : Option Place} {s : Session σ} (attended : w.Attended)
    (moved : Moved w t lock place s notes w') (phase : s.state.phase = w.session.state.phase)
    (own : ∀ a, w.Has t → t.place = .asking a → a.phase? = some w.session.state.phase →
      .dropped t.id ∈ notes)
    (known : t.id = w.nextId ∨ w.Has t) (orderly : w.Orderly) : w'.Attended := by
  intro pending
  rw [moved.session, phase] at pending ⊢
  rcases attended pending with ⟨u, a, has, asking, edge⟩ | ⟨id, dropped⟩
  · by_cases same : u.id = t.id
    · have number := orderly.number has
      have had := known.resolve_left (by omega)
      obtain rfl := has.unique had same
      refine .inr ⟨u.id, ?_⟩
      rw [moved.log]
      exact List.mem_append_right _ (own a has asking edge)
    · exact .inl ⟨u, a, (moved.has_other same).mpr has, asking, edge⟩
  · refine .inr ⟨id, ?_⟩
    rw [moved.log]
    exact List.mem_append_left _ dropped

variable [TokenStore σ]

theorem Moves.attended {id : Nat} (moves : Moves w w' id) (orderly : w.Orderly)
    (attended : w.Attended) : w'.Attended := by
  cases moves.sorts orderly with
  | idle same => rwa [same]
  | @turns t occasion lock notes result s comes turn moved =>
    intro pending
    have before : s.state.phase.isPending = true := by simpa [moved.session] using pending
    rcases turn.pending before with ⟨a, rfl, edge⟩ | ⟨same, elsewhere⟩
    · refine .inl ⟨{ t with place := .asking a }, a, ?_, rfl, ?_⟩
      · rw [Has, moved.tasks, if_pos rfl]
        rfl
      · simpa [moved.session] using edge
    · -- The phase was there before, and this call was not the one that attended to it.
      refine attended.stays moved (by simpa using same) ?_ comes.known orderly pending
      intro a has asking edge
      obtain ⟨reply, rfl, _⟩ := comes.answers orderly has asking (Await.isAboard_of_phase edge)
      exact absurd edge (elsewhere a reply rfl)
  | quiet moved respects quiet =>
    refine attended.stays moved quiet.phase (fun a has asking edge => ?_) quiet.known orderly
    -- Whoever attends holds the flight, and can leave it only by being dropped.
    have holds := orderly.aboard has asking (Await.isAboard_of_phase edge)
    refine quiet.dropped has asking (Option.not_isSome_iff_eq_none.mp fun goes => ?_)
    exact quiet.ashore goes (Lock.mem_line.mpr (.inl holds))

theorem Reachable.attended (reachable : w.Reachable) : w.Attended :=
  reachable.induction (fun _ _ _ => nofun)
    fun _ action orderly => (step_moves orderly action).attended orderly

omit [TokenStore σ] in
theorem Orderly.isFree (orderly : w.Orderly) (idle : w.tasks = []) : w.flight.lock.isFree = true := by
  cases holder : w.flight.lock.holder with
  | none => simp [Lock.isFree, holder]
  | some id =>
    obtain ⟨t, _, has, _⟩ := orderly.line (Lock.mem_line.mpr (.inl holder))
    simp [Has, task?, idle] at has

/-- A call that finds the flight free does its first work on it at once. -/
theorem Orderly.embarks {call : Call} {s : Session σ} {result : Except AuthError Stop}
    (orderly : w.Orderly) (free : w.flight.lock.isFree = true) (boards : call.boards = true)
    (publishes : Bool) (performed : w.session.perform (Session.aboard call) = (result, s)) :
    ∃ t : Task, t.id = w.nextId ∧ t.call = call ∧
      Moved w t (w.flight.lock.arrive t.id) (rest (result.map .stop)) s.rested
        ([.started t.id call, .boarded t.id] ++ s.deeds.map (.did t.id) ++
          closing t (w.flight.lock.arrive t.id) s.rested (result.map .stop))
        (w.step (.start call publishes)) := by
  let t : Task := { id := w.nextId, call, publishes, place := .startupTurn }
  have begun := (opened_start w (t := t) rfl).idle orderly.rested
  have embarked := begun.arrive.embark (.inr (orderly.fresh rfl)) (orderly.lock.first_of_free free)
    performed
  have ran : w.step (.start call publishes) =
      World.board (({ w with nextId := w.nextId + 1 }.note (.started t.id t.call)).after t.id w.session)
        t := by
    cases call <;> first | rfl | contradiction
  have other : t.call.isStartup = false := by cases call <;> first | rfl | contradiction
  rw [settled_of_other _ _ other] at embarked
  rw [ran, World.board, if_pos (begun.lock ▸ free)]
  exact ⟨t, rfl, rfl, embarked⟩

/-- Connecting begins with a question to the wallet. -/
theorem Orderly.connects (orderly : w.Orderly) (free : w.flight.lock.isFree = true)
    (wallet : w.session.hasWallet = true) (publishes : Bool) :
    ∃ t notes, t.id = w.nextId ∧ t.call = .connect ∧
      Moved w t (w.flight.lock.arrive t.id) (some (.asking .connectedWallet))
        (w.session.withConnected false).rested notes (w.step (.start .connect publishes)) := by
  have performed : w.session.perform (Session.aboard .connect) =
      (.ok (.wait .connectedWallet), w.session.withConnected false) := by
    simp [Session.aboard, wallet]
  obtain ⟨t, fresh, only, moved⟩ := orderly.embarks free rfl publishes performed
  exact ⟨t, _, fresh, only, moved⟩

/-- There is a record to be checked, and a phase from which no check can start. -/
def Stranded (w : World σ) : Prop :=
  w.session.state.phase.isPending = true ∧ w.session.state.token.isPresent = true

theorem Orderly.setsOut (orderly : w.Orderly) (idle : w.tasks = [])
    (wallet : w.session.hasWallet = true) (obliging : Obliging w.session.store)
    (publishes : Bool) :
    ∃ t notes, t.id = w.nextId ∧ t.call = .connect ∧
      (w.step (.start .connect publishes)).session = (w.session.withConnected false).rested ∧
      (w.step (.start .connect publishes)).log = w.log ++ notes ∧
      Stage (w.step (.start .connect publishes)) t .connectedWallet w.session.state.phase := by
  obtain ⟨t, notes, fresh, only, moved⟩ := orderly.connects (orderly.isFree idle) wallet publishes
  refine ⟨{ t with place := .asking .connectedWallet }, notes, fresh, only, moved.session, moved.log,
    orderly.step _, ?_, rfl, ?_, ?_, ?_⟩
  · rw [Has, moved.tasks, if_pos rfl]
    rfl
  · rw [only]
    rfl
  · rwa [moved.session]
  · rw [moved.session]
    rfl

variable {reply : Replies}

theorem Orderly.reconnects (orderly : w.Orderly) (idle : w.tasks = [])
    (wallet : w.session.hasWallet = true) (obliging : Obliging w.session.store) (well : reply.Well)
    (able : ¬w.Stranded) (publishes : Bool) :
    Succeeds w w.nextId .connect
      ((w.step (.start .connect publishes)).heed reply w.nextId 7) := by
  obtain ⟨t, notes, fresh, only, session, log, stage⟩ :=
    orderly.setsOut idle wallet obliging publishes
  have heard : reply Await.connectedWallet.request = .ok true := well.isConnected
  have succeeds := stage.check well only (heard ▸ .connected) (by rwa [session]) (by
    rw [session]
    exact fun present => Bool.eq_false_iff.mpr fun pending => able ⟨pending, present⟩) 0
  rw [only, fresh] at succeeds
  exact succeeds.earlier log

theorem Orderly.cannotReconnect (orderly : w.Orderly) (idle : w.tasks = [])
    (wallet : w.session.hasWallet = true) (obliging : Obliging w.session.store) (well : reply.Well)
    (stranded : w.Stranded) (publishes : Bool) :
    let asking := w.step (.start .connect publishes)
    (∀ n, (asking.heed reply w.nextId n).session.state.connected = false) ∧
      .returned w.nextId (.error (.invalidTransition w.session.state.phase .revalidate)) ∈
        (asking.heed reply w.nextId 1).log := by
  intro asking
  obtain ⟨t, notes, fresh, only, session, log, stage⟩ :=
    orderly.setsOut idle wallet obliging publishes
  have heard : reply Await.connectedWallet.request = .ok true := well.isConnected
  have refused : asking.session.perform
      (Session.resume t.call .connectedWallet (reply Await.connectedWallet.request)) =
        (.error (.invalidTransition w.session.state.phase .revalidate),
          (w.session.withConnected false).rested) := by
    rw [session, only, Session.perform_resume_beforeCheck _ (heard ▸ .connected),
      Session.perform_startCheck_stranded (w.session.withConnected false).rested _ stranded.2
        stranded.1]
    rfl
  have fails := stage.orderly.fails stage.has stage.place stage.other refused
  rw [fresh] at fails
  refine ⟨fun n => ?_, (fails 0).2⟩
  cases n with
  | zero =>
    rw [heed, session]
    rfl
  | succ n =>
    rw [(fails n).1]
    rfl

/-- Connecting with everybody's good will fails just if the session is stranded, and only a call
that was dropped can have stranded it. -/
theorem reconnects_unless_stranded (reachable : w.Reachable) (idle : w.tasks = [])
    (wallet : w.session.hasWallet = true) (obliging : Obliging w.session.store) (well : reply.Well)
    (publishes : Bool) :
    let asking := w.step (.start .connect publishes)
    (¬w.Stranded → Succeeds w w.nextId .connect (asking.heed reply w.nextId 7)) ∧
      (w.Stranded → (∀ n, (asking.heed reply w.nextId n).session.state.connected = false) ∧
        .returned w.nextId (.error (.invalidTransition w.session.state.phase .revalidate)) ∈
          (asking.heed reply w.nextId 1).log) ∧
      ((∀ id, .dropped id ∉ w.log) → ¬w.Stranded) := by
  have orderly := reachable.orderly
  refine ⟨fun able => orderly.reconnects idle wallet obliging well able publishes,
    fun stranded => orderly.cannotReconnect idle wallet obliging well stranded publishes,
    fun stayed stranded => ?_⟩
  rcases reachable.attended stranded.1 with ⟨t, a, has, _⟩ | ⟨id, dropped⟩
  · simp [Has, task?, idle] at has
  · exact stayed id dropped

/-- A handshake that is dropped before its challenge is kept leaves no record, and does no harm. -/
theorem reconnects_after_early_drop :
    let w := (ofSession (Session.create ⟨"", "", ""⟩ true (⟨none⟩ : MemoryStore))).steps
      [.start .handshake false, .answer 0 .account (.ok "a"), .drop 0]
    w.session.state.phase.isPending = true ∧
      Succeeds w 1 .connect ((w.step (.start .connect false)).heed .kind 1 7) := by
  intro w
  have reachable : w.Reachable := ⟨_, _, _, _, rfl⟩
  have free : ¬w.Stranded := fun stranded => absurd stranded.2 (by decide)
  exact ⟨rfl, (reconnects_unless_stranded reachable rfl rfl (.memory _) Replies.kind_well false).1 free⟩

/-- One that is dropped at the signing prompt strands the session. -/
theorem not_always_reconnects :
    ¬∀ (w : World MemoryStore) (reply : Replies), w.Reachable → w.tasks = [] →
      w.session.hasWallet = true → Obliging w.session.store → reply.Well → ∀ publishes,
        ∃ n, Succeeds w w.nextId .connect
          ((w.step (.start .connect publishes)).heed reply w.nextId n) := by
  intro always
  let w := (ofSession (Session.create ⟨"", "", ""⟩ true (⟨none⟩ : MemoryStore))).steps
    [.start .handshake false, .answer 0 .account (.ok "a"),
      .answer 0 .issue (.ok { token := some "t", account := some "a", nonce := some "n" }), .drop 0]
  have reachable : w.Reachable := ⟨_, _, _, _, rfl⟩
  have idle : w.tasks = [] := rfl
  have wallet : w.session.hasWallet = true := rfl
  have state : w.session.state =
      { phase := .pendingSignature,
        token := { token := some "t", account := some "a", nonce := some "n" } } := rfl
  have stranded : w.Stranded := by
    rw [Stranded, state]
    exact ⟨rfl, rfl⟩
  obtain ⟨n, connected, _⟩ := always w .kind reachable idle wallet (.memory _) Replies.kind_well false
  obtain ⟨apart, _⟩ := reachable.orderly.cannotReconnect idle wallet (.memory _) Replies.kind_well
    stranded false
  exact Bool.false_ne_true ((apart n).symm.trans connected)

end WalletSession.World
