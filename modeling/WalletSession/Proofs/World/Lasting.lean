import WalletSession.Proofs.World.Returns
import WalletSession.Proofs.World.Sharing

/-! How long a connection lasts. Connecting and a handshake tell their caller of a verified session
only while they leave it connected, with a wallet and nobody on the flight. From there on only a
disconnect, a new flight or startup can take the connection away, and startup does so just if the
wallet does not answer it that it is connected, however long ago it was asked. -/
namespace WalletSession

variable {σ : Type} [TokenStore σ]

theorem HandshakeOutcome.isNo_handshakeValue (call : Call) (o : HandshakeOutcome) :
    (call.handshakeValue o).isNo = !o.isVerified := by
  cases call <;> rfl

namespace Session

variable {s s' : Session σ} {call : Call} {occasion : Occasion} {result : Except AuthError Move}

/-- Whoever makes for a connection goes on only if there is a wallet. -/
theorem Turn.equipped {a : Await} (turn : Turn call s occasion (.ok (.stop (.wait a))) s')
    (aboard : a.isAboard = true) (shares : call.isShareable = true)
    (before : ∀ b reply, occasion = .answer b reply → s.hasWallet = true) : s.hasWallet = true := by
  cases turn with
  | asks asks => simp [asks.outside] at aboard
  | logsOut _ next => rcases next with rfl | rfl <;> contradiction
  | setsOut _ wallet | startsOver _ wallet | fallsBack _ _ _ wallet => exact wallet
  | revalidates checks =>
    cases checks with
    | alone only => simp [shares] at only
    | connected | prompted => exact before _ _ rfl
  | prompts | starts | signs | submits | keepsChallenge => exact before _ _ rfl

/-- Connecting and a handshake begin their flight by disconnecting. -/
theorem Turn.disconnects (turn : Turn call s .flight result s') (shares : call.isShareable = true) :
    s'.state.connected = false := by
  cases turn with
  | asks asks => cases asks
  | isUnready _ denies => cases denies
  | returns ends | fails ends => cases ends
  | cannotCheck checks | revalidates checks =>
    cases checks with
    | alone only => simp [shares] at only
  | _ => rfl

/-- A connection that a call reports is one that was confirmed just then. -/
theorem Turn.reports {o : HandshakeOutcome}
    (turn : Turn call s occasion (.ok (.stop (.finish (call.handshakeValue o)))) s')
    (shares : call.isShareable = true) (verified : o.isVerified = true) :
    s'.state.connected = true ∧ ∃ a reply, occasion = .answer a reply ∧ a.isAboard = true := by
  have yes : (call.handshakeValue o).isNo = false := by
    rw [HandshakeOutcome.isNo_handshakeValue, verified]
    rfl
  generalize told : call.handshakeValue o = v at turn yes
  cases turn with
  | isUnready | lacksWallet => contradiction
  | returns ends =>
    have idle := ends.other.2
    cases call <;> simp_all [Call.isShareable, Call.boards]
  | forgets _ no | fallsBackVainly _ _ no => simp [no] at yes
  | confirms edge => exact ⟨rfl, _, _, rfl, Await.isAboard_of_phase edge⟩

/-- Without the flight, only a disconnect or what the wallet answers at startup ends a connection. -/
theorem Turn.lasts (turn : Turn call s occasion result s') (ashore : occasion.isAshore = true)
    (stops : result ≠ .ok .board) (fits : occasion.Fits call s.state.phase)
    (wallet : s.hasWallet = true) (stays : call = .disconnect → occasion ≠ .start) :
    (World.settled s'.rested call result).state.connected = true ↔
      s.state.connected = true ∧
        ∀ reply, occasion = .answer .startupWallet reply → reply = .ok true := by
  rcases turn.stops_ashore ashore stops with
    ⟨only, begins, _⟩ | ⟨rfl, ⟨a, rfl, asks⟩ | ⟨startup, denies, rfl⟩ | ⟨_, _, ends⟩⟩
  · exact absurd begins (stays only)
  · constructor
    · intro connected
      refine ⟨connected, ?_⟩
      rintro reply rfl
      cases asks
    · exact And.left
  · cases denies with
    | absent none => simp [wallet] at none
    | refused no =>
      constructor
      · simp [World.settled, concluded, startup, World.startupSucceeded]
      · rintro ⟨_, told⟩
        exact absurd (told _ rfl) no
  · rw [World.settled_of_other _ _ ends.other.1]
    constructor
    · intro connected
      refine ⟨connected, ?_⟩
      rintro reply rfl
      have startup : call.isStartup = true := fits.1
      simp [ends.other] at startup
    · exact And.left

end Session

namespace World

variable {w w' : World σ} {t u : Task} {a : Await} {id : Nat} {occasion : Occasion} {lock : Lock}
  {notes : List Note} {place : Option Place} {s : Session σ}

/-- Somebody makes for a connection, or the last flight offers one to others, only with a wallet. -/
structure Equipped (w : World σ) : Prop where
  flies {t : Task} {a : Await} (flies : w.Flies t a) (shares : t.call.isShareable = true) :
    w.session.hasWallet = true
  offers (offered : w.flight.shareable = true) : w.session.hasWallet = true

omit [TokenStore σ] in
theorem Equipped.moved (equipped : w.Equipped) (moved : Moved w t lock place s notes w')
    (mine : ∀ n ∈ notes, n.id = t.id) (wallet : s.hasWallet = w.session.hasWallet)
    (own : ∀ a, place = some (.asking a) → a.isAboard = true → t.call.isShareable = true →
      w.session.hasWallet = true)
    (landed : .landed t.id true ∈ notes → t.call.isShareable = true → w.session.hasWallet = true) :
    w'.Equipped := by
  constructor
  · intro u a ⟨has, asking, aboard⟩ shares
    rw [moved.session, wallet]
    rcases moved.has_cases has with ⟨p, goes, rfl⟩ | ⟨_, had⟩
    · exact own a (goes.trans (congrArg some asking)) aboard shares
    · exact equipped.flies ⟨had, asking, aboard⟩ shares
  · intro offered
    rw [moved.session, wallet]
    have flag : w'.flight.shareable = (w.flight.after t.call notes).shareable := by rw [moved.flight]
    rw [flag, Flight.after_shareable] at offered
    cases last : (landings notes).getLast? with
    | none => exact equipped.offers (by simpa [last] using offered)
    | some ended =>
      obtain ⟨id, connected⟩ := ended
      have member := mem_landings.mp (List.mem_of_getLast? last)
      obtain rfl : id = t.id := mine _ member
      obtain ⟨shares, rfl⟩ : t.call.isShareable = true ∧ connected = true := by
        simpa [last] using offered
      exact landed member shares

theorem Equipped.turns {result : Except AuthError Move} (equipped : w.Equipped)
    (orderly : w.Orderly) (comes : Comes w t occasion lock notes)
    (turn : Session.Turn t.call w.session occasion result s)
    (moved : Moved w t lock (rest result) (settled s.rested t.call result)
      (notes ++ s.deeds.map (.did t.id) ++ closing t lock s.rested result) w') : w'.Equipped := by
  have flown {a : Await} {reply : Except AuthError a.Reply} (answers : occasion = .answer a reply)
      (aboard : occasion.isAshore = false) (shares : t.call.isShareable = true) :
      w.session.hasWallet = true := by
    subst answers
    cases comes with
    | answered has place _ =>
      exact equipped.flies ⟨has, place, by simpa [Occasion.isAshore] using aboard⟩ shares
  have respects := orderly.turns comes turn
  refine equipped.moved moved (fun n => respects.mine) respects.hasWallet ?_ ?_
  · intro a goes aboard shares
    obtain ⟨_, rfl, same⟩ := rest_eq_some goes
    cases same
    have off : occasion.isAshore = false := by simpa [aboard] using turn.aboard
    exact turn.equipped aboard shares fun b reply answers => flown answers off shares
  · intro landed shares
    cases off : occasion.isAshore with
    | true =>
      have none := comes.unlanded_ashore orderly off landed
      contradiction
    | false =>
      cases occasion with
      | start => contradiction
      | answer a reply => exact flown rfl off shares
      | flight =>
        have apart := turn.disconnects shares
        have connected := (comes.landed landed).2.1
        simp [apart] at connected

theorem Moves.equipped (moves : Moves w w' id) (orderly : w.Orderly) (equipped : w.Equipped) :
    w'.Equipped := by
  have quiet {t : Task} {lock : Lock} {place : Option Place} {s : Session σ} {notes : List Note}
      (moved : Moved w t lock place s notes w') (mine : ∀ n ∈ notes, n.id = t.id)
      (wallet : s.hasWallet = w.session.hasWallet) (silent : ∀ a, place ≠ some (.asking a))
      (unlanded : ∀ n ∈ notes, n.landed? = none) : w'.Equipped :=
    equipped.moved moved mine wallet (fun a goes => absurd goes (silent a))
      fun landed => nomatch unlanded _ landed
  cases moves with
  | idle same => rwa [same]
  | turns comes turn stops moved => exact equipped.turns orderly comes turn moved
  | queues comes turn moved =>
    exact quiet moved (fun _ => comes.mine) rfl (by simp) fun _ => comes.unlanded
  | shares has place holds served moved =>
    exact quiet moved (by simp [Note.id]) (by simp) (by simp) (by simp [Note.landed?])
  | waits number only moved =>
    exact quiet moved (by simp [Note.id]) rfl (by simp) (by simp [Note.landed?])
  | observes comes moved =>
    refine quiet moved (fun n member => comes.mine_snoc rfl member) rfl (by simp) ?_
    simpa [or_imp, forall_and, Note.landed?] using fun _ => comes.unlanded
  | drops has moved =>
    refine equipped.moved moved (fun n member => (parting_final member).1) rfl (by simp) ?_
    intro landed shares
    obtain ⟨⟨a, flies⟩, _⟩ := landed_of_parting orderly has landed
    exact equipped.flies flies shares

theorem Reachable.equipped (reachable : w.Reachable) : w.Equipped :=
  reachable.induction
    (fun _ _ _ => ⟨fun flies => (nomatch flies.1), nofun⟩)
    fun _ action orderly => (step_moves orderly action).equipped orderly

/-- There is a wallet, and nobody is on the flight. -/
structure Moored (w : World σ) : Prop where
  wallet : w.session.hasWallet = true
  grounded (t : Task) (a : Await) : ¬w.Flies t a

/-- Nobody begins to disconnect or to fly. -/
def Undisturbing (notes : List Note) : Prop :=
  ∀ id, .started id .disconnect ∉ notes ∧ .boarded id ∉ notes

/-- Whoever hears from the wallet whether it is connected hears that it is. -/
def WalletStays (notes : List Note) : Prop :=
  ∀ id (reply : Except AuthError Bool), .answered id .isConnected reply ∈ notes → reply = .ok true

omit [TokenStore σ] in
theorem Moored.moved (moored : w.Moored) (moved : Moved w t lock place s notes w')
    (wallet : s.hasWallet = w.session.hasWallet)
    (ashore : ∀ a, place = some (.asking a) → a.isAboard = false) : w'.Moored := by
  constructor
  · rw [moved.session, wallet, moored.wallet]
  · rintro u a ⟨has, asking, aboard⟩
    rcases moved.has_cases has with ⟨p, goes, rfl⟩ | ⟨_, had⟩
    · simp [ashore a (goes.trans (congrArg some asking))] at aboard
    · exact moored.grounded u a ⟨had, asking, aboard⟩

section Append

variable {first second : List Note}

theorem undisturbing_append :
    Undisturbing (first ++ second) ↔ Undisturbing first ∧ Undisturbing second := by
  simp only [Undisturbing, List.mem_append, not_or, and_and_and_comm, forall_and]

theorem walletStays_append :
    WalletStays (first ++ second) ↔ WalletStays first ∧ WalletStays second := by
  simp [WalletStays, or_imp, forall_and]

theorem walletStays_of_unheard
    (unheard : ∀ id (reply : Except AuthError Bool), .answered id .isConnected reply ∉ notes) :
    WalletStays notes :=
  fun id reply heard => absurd heard (unheard id reply)

omit [TokenStore σ] in
theorem walletStays_closing {result : Except AuthError Move} :
    WalletStays (closing t lock s result) := by
  apply walletStays_of_unheard
  intro id reply heard
  rcases closing_cases heard with final | ⟨_, _, ⟨⟩⟩
  exact Bool.false_ne_true final

end Append

/-- Off the flight it is startup that hears from the wallet. -/
theorem Comes.walletStays (comes : Comes w t occasion lock notes)
    (ashore : occasion.isAshore = true) :
    WalletStays notes ↔ ∀ reply, occasion = .answer .startupWallet reply → reply = .ok true := by
  cases comes with
  | fresh => simp [WalletStays]
  | roused => simp [WalletStays]
  | @answered a has place reply =>
    cases a with
    | startupWallet =>
      constructor
      · rintro stays _ ⟨⟩
        exact stays t.id reply (List.mem_singleton.mpr rfl)
      · rintro told id _ heard
        cases List.mem_singleton.mp heard
        exact told reply rfl
    | connectedWallet => contradiction
    | _ =>
      constructor
      · rintro _ _ ⟨⟩
      · intro _
        apply walletStays_of_unheard
        intro id _ heard
        cases List.mem_singleton.mp heard
  | boards | isCalled => contradiction

/-- With nobody on the flight, a call that does not begin one works without it. -/
theorem Moored.ashore (moored : w.Moored) (comes : Comes w t occasion lock notes)
    (grounded : .boarded t.id ∉ notes) : occasion.isAshore = true := by
  cases comes with
  | fresh | roused => rfl
  | @answered a has place _ =>
    refine Bool.not_eq_false _ ▸ fun aboard => moored.grounded t a ⟨has, place, ?_⟩
    simpa [Occasion.isAshore] using aboard
  | boards | isCalled => simp at grounded

theorem Moored.turns {result : Except AuthError Move} (moored : w.Moored) (orderly : w.Orderly)
    (comes : Comes w t occasion lock notes)
    (turn : Session.Turn t.call w.session occasion result s) (stops : result ≠ .ok .board)
    (moved : Moved w t lock (rest result) (settled s.rested t.call result)
      (notes ++ s.deeds.map (.did t.id) ++ closing t lock s.rested result) w')
    (quiet : Undisturbing notes) :
    w'.Moored ∧ (w'.session.state.connected = true ↔
      w.session.state.connected = true ∧
        WalletStays (notes ++ s.deeds.map (.did t.id) ++ closing t lock s.rested result)) := by
  have ashore := moored.ashore comes (quiet t.id).2
  have stays : t.call = .disconnect → occasion ≠ .start := by
    rintro only rfl
    obtain rfl := comes.starts orderly (by simp [only, Call.isStartup])
    simp [Undisturbing, only] at quiet
  constructor
  · refine moored.moved moved (orderly.turns comes turn).hasWallet ?_
    intro a goes
    obtain ⟨_, rfl, same⟩ := rest_eq_some goes
    cases same
    rw [turn.aboard, ashore]
    rfl
  · have did : WalletStays (s.deeds.map (.did t.id)) := walletStays_of_unheard (by simp)
    rw [moved.session, walletStays_append, walletStays_append, comes.walletStays ashore,
      turn.lasts ashore stops (comes.fits orderly) moored.wallet stays]
    simp only [did, walletStays_closing, and_true]

/-- A move that nobody begins to disconnect or to fly with leaves a session as connected as the wallet
lets it. -/
theorem Moves.lasts (moves : Moves w w' id) (orderly : w.Orderly) (moored : w.Moored) :
    ∃ notes, w'.log = w.log ++ notes ∧ (Undisturbing notes →
      w'.Moored ∧ (w'.session.state.connected = true ↔
        w.session.state.connected = true ∧ WalletStays notes)) := by
  cases moves with
  | idle same =>
    subst same
    exact ⟨[], by simp, fun _ => ⟨moored, by simp [WalletStays]⟩⟩
  | turns comes turn stops moved =>
    refine ⟨_, moved.log, fun quiet => moored.turns orderly comes turn stops moved ?_⟩
    rw [undisturbing_append, undisturbing_append] at quiet
    exact quiet.1.1
  | queues comes turn moved =>
    have told := (comes.walletStays turn.board_ashore).mpr <| by
      rintro reply rfl
      cases turn
      rfl
    refine ⟨_, moved.log, fun _ => ⟨moored.moved moved rfl (by simp), ?_⟩⟩
    rw [moved.session]
    exact ⟨fun connected => ⟨connected, told⟩, And.left⟩
  | shares has place holds served moved =>
    have connected := (isServed_iff.mp served).2.2
    refine ⟨_, moved.log, fun _ => ⟨moored.moved moved (by simp) (by simp), ?_⟩⟩
    rw [moved.session]
    exact ⟨fun _ => ⟨connected, walletStays_of_unheard (by simp)⟩,
      fun _ => connected_of_shared _ connected⟩
  | waits number only moved =>
    refine ⟨_, moved.log, fun _ => ⟨moored.moved moved rfl (by simp), ?_⟩⟩
    rw [moved.session]
    exact ⟨fun connected => ⟨connected, walletStays_of_unheard (by simp)⟩, And.left⟩
  | observes comes moved =>
    refine ⟨_, moved.log, fun _ => ⟨moored.moved moved rfl (by simp), ?_⟩⟩
    rw [moved.session, walletStays_append]
    exact ⟨fun connected => ⟨connected, (comes.walletStays rfl).mpr (by simp),
      walletStays_of_unheard (by simp)⟩, And.left⟩
  | drops has moved =>
    refine ⟨_, moved.log, fun _ => ⟨moored.moved moved rfl (by simp), ?_⟩⟩
    rw [moved.session]
    refine ⟨fun connected => ⟨connected, walletStays_of_unheard ?_⟩, And.left⟩
    intro id _ heard
    exact Bool.false_ne_true (parting_final heard).2

theorem Moored.steps (moored : w.Moored) (orderly : w.Orderly) (actions : List Action) :
    ∃ after, (w.steps actions).log = w.log ++ after ∧ (Undisturbing after →
      (w.steps actions).Moored ∧ ((w.steps actions).session.state.connected = true ↔
        w.session.state.connected = true ∧ WalletStays after)) := by
  -- The induction is on the actions; who is moored after the first stays so as long as nobody flies.
  induction actions generalizing w with
  | nil => exact ⟨[], (List.append_nil _).symm, fun _ => ⟨moored, by simp [WalletStays, World.steps]⟩⟩
  | cons action actions ih =>
    obtain ⟨notes, log, lasts⟩ := (step_moves orderly action).lasts orderly moored
    by_cases quiet : Undisturbing notes
    · obtain ⟨moored', now⟩ := lasts quiet
      obtain ⟨later, log', lasts'⟩ := ih moored' (orderly.step action)
      refine ⟨notes ++ later, by rw [steps_cons, log', log, List.append_assoc], fun all => ?_⟩
      obtain ⟨moored'', then'⟩ := lasts' (undisturbing_append.mp all).2
      refine ⟨moored'', ?_⟩
      rw [steps_cons, then', now, walletStays_append, and_assoc]
    · obtain ⟨later, log'⟩ := (orderly.step action).log_steps actions
      refine ⟨notes ++ later, by rw [steps_cons, ← log', log, List.append_assoc], fun all => ?_⟩
      exact absurd (undisturbing_append.mp all).1 quiet

/-- Where a connection is reported, the session is connected and moored. -/
theorem Moves.reports (moves : Moves w w' id) (orderly : w.Orderly) (equipped : w.Equipped)
    (registered : w.Registered) (log : w'.log = w.log ++ notes) {number : Nat} {call : Call}
    {o : HandshakeOutcome} (told : .returned number (.ok (call.handshakeValue o)) ∈ notes)
    (started : .started number call ∈ w'.log) (shares : call.isShareable = true)
    (verified : o.isVerified = true) : w'.Moored ∧ w'.session.state.connected = true := by
  obtain ⟨t, rfl, rfl, returns⟩ := moves.returns orderly registered log told started
  have other := Call.other_of_shares shares
  generalize ended : Except.ok (t.call.handshakeValue o) = result at returns
  cases returns with
  | @ends occasion lock now value s comes turn moved =>
    rw [Session.told_of_other _ _ other] at ended
    subst ended
    obtain ⟨connected, a, reply, rfl, aboard⟩ := turn.reports shares verified
    cases comes with
    | answered has place _ =>
      have flies : w.Flies t a := ⟨has, place, aboard⟩
      refine ⟨⟨?_, ?_⟩, ?_⟩
      · rw [moved.session, Session.concluded_hasWallet, Session.rested_hasWallet, turn.hasWallet]
        exact equipped.flies flies shares
      · rintro u b ⟨has', asking, aboard'⟩
        rcases moved.has_cases has' with ⟨p, goes, _⟩ | ⟨apart, had⟩
        · contradiction
        · exact apart (congrArg Task.id (orderly.alone flies ⟨had, asking, aboard'⟩))
      · rw [moved.session, Session.concluded_of_other _ _ other]
        exact connected
  | shares has place holds served moved =>
    obtain ⟨_, offered, connected⟩ := isServed_iff.mp served
    refine ⟨⟨?_, ?_⟩, ?_⟩
    · rw [moved.session, Session.concluded_hasWallet]
      exact equipped.offers offered
    · rintro u b ⟨has', asking, aboard⟩
      rcases moved.has_cases has' with ⟨p, goes, _⟩ | ⟨apart, had⟩
      · contradiction
      · have holds' := orderly.aboard had asking aboard
        exact apart (Option.some.inj (holds'.symm.trans holds))
    · rw [moved.session]
      exact connected_of_shared _ connected
  | observes comes moved only => simp [only, Call.isStartup] at other

/-- Once a connect or a handshake has told its caller of a verified session, it stays connected until
somebody disconnects it or begins a flight, just if the wallet tells whoever asks it at startup that
it is connected. -/
theorem connection_lasts (reachable : w.Reachable) {action : Action} {notes : List Note}
    (log : (w.step action).log = w.log ++ notes) {id : Nat} {call : Call} {o : HandshakeOutcome}
    (told : .returned id (.ok (call.handshakeValue o)) ∈ notes)
    (started : .started id call ∈ (w.step action).log) (shares : call.isShareable = true)
    (verified : o.isVerified = true) (actions : List Action) :
    ∃ after, ((w.step action).steps actions).log = (w.step action).log ++ after ∧
      (Undisturbing after →
        (((w.step action).steps actions).session.state.connected = true ↔ WalletStays after)) := by
  have orderly := reachable.orderly
  obtain ⟨moored, connected⟩ := (step_moves orderly action).reports orderly reachable.equipped
    reachable.registered log told started shares verified
  obtain ⟨after, grows, lasts⟩ := moored.steps (orderly.step action) actions
  refine ⟨after, grows, fun quiet => ?_⟩
  rw [(lasts quiet).2]
  simp [connected]

section Race

/-- Startup waits for the wallet, and a handshake for the verification of its signature. -/
def racing : World MemoryStore :=
  (ofSession (Session.create ⟨"", "", ""⟩ true (⟨none⟩ : MemoryStore))).steps
    [.start .init false, .start .handshake false, .answer 1 .account (.ok "a"),
      .answer 1 .issue (.ok { token := some "t", account := some "a", nonce := some "n" }),
      .answer 1 .signMessage (.ok ⟨true, some { message := "m", nonce := "n", signature := [] }⟩),
      .answer 1 .publicKey (.ok "k")]

/-- The handshake is over, and startup still waits. -/
def raced : World MemoryStore := racing.step (.answer 1 .verify (.ok { verified := true }))

/-- What the end of the handshake leaves in the history. -/
def finish : List Note :=
  [.answered 1 .verify (.ok { verified := true }),
    .did 1 (.saved ⟨some "t", some "a", some "n", true, none⟩ true), .landed 1 true,
    .returned 1 (.ok (Call.handshake.handshakeValue .verified))]

theorem racing_reachable : racing.Reachable := ⟨_, _, _, _, rfl⟩

theorem raced_log : raced.log = racing.log ++ finish := rfl

theorem started_raced : .started 1 .handshake ∈ raced.log := List.mem_of_getElem? (i := 2) rfl

theorem told_finish : .returned 1 (.ok (Call.handshake.handshakeValue .verified)) ∈ finish :=
  List.mem_of_getElem? (i := 3) rfl

/-- A connection lasts while the balance is shown, and ends where startup, which began before it, hears
that the wallet is not connected. -/
theorem lost_to_startup_alone :
    (raced.steps [.start .balance false]).session.state.connected = true ∧
      (raced.steps [.answer 0 .isConnected (.ok false)]).session.state.connected = false := by
  constructor
  · obtain ⟨after, grows, lasts⟩ := connection_lasts racing_reachable raced_log told_finish
      started_raced rfl rfl [.start .balance false]
    have same : after = [.started 2 .balance, .asked 2 (.view (.balanceOf "" "a"))] :=
      List.append_cancel_left (grows.symm.trans rfl)
    subst same
    exact (lasts (by simp [Undisturbing])).mpr (by simp [WalletStays])
  · obtain ⟨after, grows, lasts⟩ := connection_lasts racing_reachable raced_log told_finish
      started_raced rfl rfl [.answer 0 .isConnected (.ok false)]
    have same : after = [.answered 0 .isConnected (.ok false), .returned 0 (.ok (.flag false))] :=
      List.append_cancel_left (grows.symm.trans rfl)
    subst same
    refine Bool.eq_false_iff.mpr fun connected => ?_
    have stays := (lasts (by simp [Undisturbing])).mp connected
    exact absurd (stays 0 _ List.mem_cons_self) (by decide)

/-- So startup that was under way takes a connection away with nobody else about. -/
theorem not_always_lasting :
    ¬∀ (w : World MemoryStore) (action : Action) (notes : List Note) (id : Nat) (call : Call)
        (o : HandshakeOutcome) (actions : List Action) (after : List Note), w.Reachable →
      (w.step action).log = w.log ++ notes → .returned id (.ok (call.handshakeValue o)) ∈ notes →
      .started id call ∈ (w.step action).log → call.isShareable = true → o.isVerified = true →
      ((w.step action).steps actions).log = (w.step action).log ++ after → Undisturbing after →
      ((w.step action).steps actions).session.state.connected = true := by
  intro always
  let after : List Note := [.answered 0 .isConnected (.ok false), .returned 0 (.ok (.flag false))]
  have later : (raced.steps [.answer 0 .isConnected (.ok false)]).log = raced.log ++ after := rfl
  have connected := always racing (.answer 1 .verify (.ok { verified := true })) finish 1 .handshake
    .verified [.answer 0 .isConnected (.ok false)] after racing_reachable raced_log told_finish
    started_raced rfl rfl later (by simp [Undisturbing, after])
  exact absurd connected (by decide +kernel)

end Race

end World

end WalletSession
