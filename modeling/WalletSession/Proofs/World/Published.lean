import WalletSession.Proofs.World.Binding

/-! What subscribers are told. As long as a session is used through its binding alone and nothing is
dropped, whatever may have changed it since it was last published belongs to a call under way that will
publish it at its end. -/
namespace WalletSession

/-- An action on a binding by which nothing is dropped. -/
def Action.isBound : Action → Bool
  | .start call publishes =>
    match call with
    | .observe => true
    | .check | .connect | .disconnect | .topUp _ => publishes
    | .balance => !publishes
    | .init | .handshake | .handshakeOutcome => false
  | .answer .. | .wake _ => true
  | .drop _ => false

/-- Who does not make for the flight asks nothing on it. -/
theorem Await.outside_of_idle {call : Call} {a : Await} (suits : a.isOf call = true)
    (idle : call.isStartup = false ∧ call.boards = false) : a.isAboard = false := by
  cases a <;> first | rfl | (cases call <;> simp_all [isOf, Call.isStartup, Call.boards, Call.isShareable])

theorem Occasion.ashore_of_idle {call : Call} {occasion : Occasion} {phase : Phase}
    (fits : occasion.Fits call phase) (idle : call.isStartup = false ∧ call.boards = false) :
    occasion.isAshore = true := by
  cases occasion with
  | start => rfl
  | flight => simp [Fits, idle] at fits
  | answer a reply => simp [isAshore, Await.outside_of_idle fits.1 idle]

namespace World

variable {σ : Type} [TokenStore σ] {w w' : World σ} {t : Task} {action : Action} {id : Nat}

/-- Whoever neither flies nor logs out leaves the session alone. -/
theorem Moves.leaves {call : Call} (moves : Moves w w' id) (orderly : w.Orderly)
    (registered : w.Registered) (started : .started id call ∈ w'.log)
    (idle : call.isStartup = false ∧ call.boards = false) (other : call ≠ .disconnect) :
    w'.session = w.session := by
  have registered' := moves.registered orderly registered
  cases moves with
  | idle same => rw [same]
  | @turns t occasion lock notes result s comes turn stops moved =>
    obtain rfl := registered'.once (registered.lists_turned orderly comes moved.log) started
    rcases turn.ashore (Occasion.ashore_of_idle (comes.fits orderly) idle) with rfl | ⟨only, _⟩
    · rw [moved.session, settled_of_other _ _ idle.1, Session.rested_of_idle orderly.rested]
    · contradiction
  | @shares t seen has _ _ _ moved =>
    obtain rfl := registered'.once (moved.log ▸ List.mem_append_left _ (registered.started has)) started
    rw [moved.session, Session.concluded_of_other _ _ idle.1]
  | queues _ _ moved | waits _ _ moved | observes _ moved | drops _ moved => exact moved.session

omit [TokenStore σ] in
theorem snapshot_eq (session : w'.session = w.session) : w'.snapshot = w.snapshot := by
  rw [World.snapshot, session, World.snapshot]

/-- A step publishes the snapshot at its end, or nothing. -/
theorem Orderly.step_published (orderly : w.Orderly) (action : Action) :
    ((w.step action).published = w.published ∨ (w.step action).published = (w.step action).snapshot) ∧
      (w.step action).version =
        if (w.step action).published = w.published then w.version else w.version + 1 := by
  have quiet {w₁ : World σ} (aside : Aside w₁ (w.step action)) (published : w₁.published = w.published)
      (version : w₁.version = w.version) :
      ((w.step action).published = w.published ∨
        (w.step action).published = (w.step action).snapshot) ∧
      (w.step action).version =
        if (w.step action).published = w.published then w.version else w.version + 1 := by
    have same := aside.published.trans published
    exact ⟨.inl same, by rw [if_pos same, aside.version, version]⟩
  cases step_bears orderly action with
  | idle same =>
    rw [same]
    exact ⟨.inl rfl, (if_pos rfl).symm⟩
  | @works t lock picks enters fares =>
    cases fares with
    | stays _ _ aside => exact quiet aside rfl rfl
    | ends _ _ published version =>
      refine ⟨?_, version⟩
      split at published
      · exact .inr published
      · exact .inl published
  | waits _ _ _ _ _ _ _ aside | sees _ _ _ _ aside => exact quiet aside rfl rfl
  | drops _ _ _ aside => exact quiet aside (by split <;> rfl) (by split <;> rfl)

/-- Whoever is under way publishes at its end, unless it only asks for the balance; and a session that
is not as it was published is in the hands of somebody who does. -/
structure Covered (w : World σ) : Prop where
  kinds {t : Task} (has : w.Has t) : t.shows = true ∨ t.call = .balance
  covered : w.published = w.snapshot ∨ ∃ t, w.Has t ∧ t.shows = true ∧ t.place ≠ .startupTurn

omit [TokenStore σ] in
theorem Picks.kind (picks : Picks w action t) (covered : w.Covered) (bound : action.isBound = true) :
    t.shows = true ∨ t.call = .balance := by
  cases picks with
  | starts =>
    unfold Action.isBound at bound
    cases call : t.call <;> simp_all [Task.shows]
  | goesOn has => exact covered.kinds has

theorem Covered.step (covered : w.Covered) (reachable : w.Reachable)
    (bound : action.isBound = true) : (w.step action).Covered := by
  have orderly := reachable.orderly
  have others (u : Task) (other : u.id ≠ w.caller action) : (w.step action).Has u ↔ w.Has u :=
    orderly.has_other action other
  have kinds (own : ∀ u, (w.step action).Has u → u.id = w.caller action →
      u.shows = true ∨ u.call = .balance) {u : Task} (has : (w.step action).Has u) :
      u.shows = true ∨ u.call = .balance := by
    by_cases same : u.id = w.caller action
    · exact own u has same
    · exact covered.kinds ((others u same).mp has)
  -- A call that does not publish leaves the session to those who are to publish it.
  have kept {t : Task} (picks : Picks w action t) (apart : t.shows = true → t.place = .startupTurn)
      (published : (w.step action).published = w.published)
      (session : (w.step action).session = w.session) :
      (w.step action).published = (w.step action).snapshot ∨
        ∃ u, (w.step action).Has u ∧ u.shows = true ∧ u.place ≠ .startupTurn := by
    rw [published, snapshot_eq session]
    refine covered.covered.imp_right ?_
    rintro ⟨u, has, shows, past⟩
    refine ⟨u, (others u fun same => ?_).mpr has, shows, past⟩
    obtain rfl := orderly.mover picks.known has (same.trans picks.caller)
    exact past (apart shows)
  cases step_bears orderly action with
  | idle same => rwa [same]
  | @works t lock picks enters fares =>
    have kind := picks.kind covered bound
    have session (silent : ¬t.shows = true) : (w.step action).session = w.session := by
      have only : t.call = .balance := kind.resolve_left silent
      have listed := picks.caller.symm ▸ picks.listed orderly reachable.registered
      exact (step_moves orderly action).leaves orderly reachable.registered listed
        (by simp [only, Call.isStartup, Call.boards]) (by simp [only])
    cases fares with
    | stays has past aside =>
      constructor
      · refine kinds fun u has' same => ?_
        rw [has'.unique has (same.trans picks.caller)]
        exact kind
      · by_cases shows : t.shows = true
        · exact .inr ⟨_, has, shows, past⟩
        · exact kept picks (absurd · shows) aside.published (session shows)
    | ends gone _ published =>
      constructor
      · exact kinds fun u has same => absurd (same.trans picks.caller) (has.ne_of_gone gone)
      · by_cases shows : t.shows = true
        · exact .inl (published.trans (if_pos shows))
        · exact kept picks (absurd · shows) (published.trans (if_neg shows)) (session shows)
  | @waits t picks _ place only _ _ has aside session =>
    constructor
    · refine kinds fun u has' same => ?_
      rw [has'.unique has (same.trans picks.caller)]
      exact picks.kind covered bound
    · exact kept picks (fun _ => place) aside.published session
  | @sees t picks place _ gone aside session =>
    constructor
    · exact kinds fun u has same => absurd (same.trans picks.caller) (has.ne_of_gone gone)
    · exact kept picks (fun _ => place) aside.published session
  | drops _ dropped => simp [dropped, Action.isBound] at bound

theorem Covered.during {actions : List Action} (covered : w.Covered) (reachable : w.Reachable)
    (bound : ∀ action ∈ actions, action.isBound = true) (n : Nat) :
    (w.during actions n).Covered := by
  induction n with
  | zero => exact covered
  | succ n ih =>
    rcases during_cases w actions n with ⟨action, next, stepped⟩ | same
    · rw [stepped]
      exact ih.step (reachable.during actions n) (bound action (List.mem_of_getElem? next))
    · rwa [same]

omit [TokenStore σ] in
/-- With nothing under way, the session is as it was published. -/
theorem Covered.published (covered : w.Covered) (done : w.tasks = []) : w.published = w.snapshot := by
  refine covered.covered.resolve_right ?_
  rintro ⟨t, has, _⟩
  simp [Has, task?, done] at has

/-- The moments of a run at which subscribers are woken, in order. -/
def wakings (w : World σ) : List Action → List (World σ)
  | [] => []
  | action :: actions =>
    (if (w.step action).version = w.version then [] else [w.step action]) ++
      (w.step action).wakings actions

section Wakings

variable {actions : List Action}

theorem Orderly.published_of_version (orderly : w.Orderly)
    (same : (w.step action).version = w.version) : (w.step action).published = w.published := by
  have counted := (orderly.step_published action).2
  by_contra other
  rw [if_neg other, same] at counted
  omega

theorem Orderly.published_of_waking (orderly : w.Orderly) {v : World σ} (woken : v ∈ w.wakings actions) :
    (∃ n, v = w.during actions n) ∧ v.published = v.snapshot := by
  induction actions generalizing w with
  | nil => contradiction
  | cons action actions ih =>
    rcases List.mem_append.mp woken with now | later
    · split at now
      · contradiction
      next changed =>
        obtain rfl := List.mem_singleton.mp now
        obtain ⟨published, counted⟩ := orderly.step_published action
        refine ⟨⟨1, rfl⟩, published.resolve_left fun same => changed ?_⟩
        rw [counted, if_pos same]
    · obtain ⟨⟨n, rfl⟩, published⟩ := ih (orderly.step action) later
      exact ⟨⟨n + 1, rfl⟩, published⟩

theorem Orderly.wakings_differ (orderly : w.Orderly) (actions : List Action) :
    ((w :: w.wakings actions).map (·.published)).IsChain (· ≠ ·) := by
  induction actions generalizing w with
  | nil => exact .singleton _
  | cons action actions ih =>
    have later := ih (orderly.step action)
    rw [wakings]
    split
    next same =>
      rw [List.map_cons, orderly.published_of_version same] at later
      exact later
    next changed =>
      refine .cons_cons (fun same => changed ?_) later
      rw [(orderly.step_published action).2, if_pos same.symm]

theorem Orderly.wakings_last (orderly : w.Orderly) (actions : List Action) :
    ((w :: w.wakings actions).map (·.published)).getLast? = some (w.steps actions).published ∧
      (w.steps actions).version = w.version + (w.wakings actions).length := by
  induction actions generalizing w with
  | nil => exact ⟨rfl, rfl⟩
  | cons action actions ih =>
    obtain ⟨last, counted⟩ := ih (orderly.step action)
    rw [steps_cons, counted, wakings]
    split
    next same =>
      rw [List.map_cons, orderly.published_of_version same] at last
      exact ⟨last, by rw [same, List.nil_append]⟩
    next changed =>
      have once := (orderly.step_published action).2
      rw [if_neg fun same => changed (once.trans (if_pos same))] at once
      refine ⟨last, ?_⟩
      rw [once, List.singleton_append, List.length_cons]
      omega

end Wakings

theorem Covered.create (chain : ChainConfig) (hasWallet : Bool) (store : σ) :
    (ofSession (Session.create chain hasWallet store)).Covered :=
  ⟨nofun, .inl rfl⟩

/-- Subscribers end up with the truth and are woken by changes alone. Whenever nothing is under way, the
session is as it was published; whatever is published is the snapshot of the session at that moment, and
no value is published twice in a row. -/
theorem published_is_true (chain : ChainConfig) (hasWallet : Bool) (store : σ)
    (actions : List Action) (bound : ∀ action ∈ actions, action.isBound = true) :
    let w : World σ := ofSession (Session.create chain hasWallet store)
    let shown : List (World σ) := w :: w.wakings actions
    (∀ n, (w.during actions n).tasks = [] →
      (w.during actions n).published = (w.during actions n).snapshot) ∧
    (∀ v ∈ shown, (∃ n, v = w.during actions n) ∧ v.published = v.snapshot) ∧
    (shown.map (·.published)).IsChain (· ≠ ·) ∧
    (shown.map (·.published)).getLast? = some (w.steps actions).published ∧
    (w.steps actions).version + 1 = shown.length := by
  intro w shown
  have reachable : w.Reachable := ⟨chain, hasWallet, store, [], rfl⟩
  have orderly := reachable.orderly
  have covered : w.Covered := .create chain hasWallet store
  obtain ⟨last, counted⟩ := orderly.wakings_last actions
  refine ⟨?_, ?_, orderly.wakings_differ actions, last, ?_⟩
  · exact fun n done => (covered.during reachable bound n).published done
  · intro v woken
    rcases List.mem_cons.mp woken with rfl | later
    · exact ⟨⟨0, rfl⟩, rfl⟩
    · exact orderly.published_of_waking later
  · rw [counted, List.length_cons]
    exact congrArg (· + 1) (Nat.zero_add _)

/-- Startup ends while a connect is under way: subscribers are woken twice, and the second time they see
the session connected. -/
theorem woken_by_startup_and_connect :
    let actions : List Action := [.start .observe false, .start .connect true,
      .answer 0 .isConnected (.ok false), .answer 1 .isConnected (.ok true),
      .answer 1 .account (.ok "a"),
      .answer 1 .issue (.ok { token := some "t", account := some "a", nonce := some "n" }),
      .answer 1 .signMessage (.ok ⟨true, some { message := "m", nonce := "n", signature := [] }⟩),
      .answer 1 .publicKey (.ok "k"), .answer 1 .verify (.ok { verified := true })]
    let w : World MemoryStore := ofSession (Session.create ⟨"", "", ""⟩ true ⟨none⟩)
    (∀ action ∈ actions, action.isBound = true) ∧ (w.steps actions).tasks = [] ∧
      (w.steps actions).published =
        { initialized := true, connected := true, phase := .verified, account := some "a" } ∧
      (w.steps actions).published = (w.steps actions).snapshot ∧ (w.wakings actions).length = 2 ∧
      ((w :: w.wakings actions).map (·.published)).IsChain (· ≠ ·) := by
  intro actions w
  have bound : ∀ action ∈ actions, action.isBound = true := by simp [actions, Action.isBound]
  obtain ⟨done, _, differ, _, counted⟩ :=
    published_is_true ⟨"", "", ""⟩ true (⟨none⟩ : MemoryStore) actions bound
  have idle : (w.steps actions).tasks = [] := by decide +kernel
  have twice : (w.steps actions).version = 2 := by decide +kernel
  have shown : (w.steps actions).published =
      { initialized := true, connected := true, phase := .verified, account := some "a" } := by
    decide +kernel
  refine ⟨bound, idle, shown, done actions.length idle, ?_, differ⟩
  exact (Nat.succ.inj (twice ▸ counted)).symm

end World

end WalletSession
