import WalletSession.Proofs.World.Lasting

/-! What a call reports of the connection is what it leaves behind, and a failed attempt to connect
leaves none. Nothing is asked of the store or of those who answer: the flag is set in several places,
before and after a question and on both sides of a write that may fail, but never apart from the
result. -/
namespace WalletSession

variable {σ : Type}

/-- What a result says of the connection that a session has then. -/
def Agrees (connected : Bool) : Call → Except AuthError Value → Prop
  | .init, result => result = .ok (.flag connected)
  | .observe, result => ∃ shown, result = .ok (.snapshot shown) ∧ shown.connected = connected
  | .check, .ok v | .connect, .ok v | .handshake, .ok v => v = .flag connected
  | .handshakeOutcome, .ok v => ∃ o, v = .outcome o ∧ o.isVerified = connected
  | .connect, .error _ | .handshake, .error _ | .handshakeOutcome, .error _ => connected = false
  | _, _ => True

section Agrees

variable {call : Call} {connected : Bool}

theorem agrees_of_idle (startup : call.isStartup = false) (idle : call.boards = false)
    (result : Except AuthError Value) : Agrees connected call result := by
  cases call <;> trivial

theorem agrees_of_outcome {o : HandshakeOutcome} (boards : call.boards = true)
    (same : o.isVerified = connected) : Agrees connected call (.ok (call.handshakeValue o)) := by
  subst same
  cases call <;> first | rfl | exact ⟨o, rfl, rfl⟩ | contradiction

theorem agrees_of_failure (boards : call.boards = true)
    (apart : call.isShareable = true → connected = false) (e : AuthError) :
    Agrees connected call (.error e) := by
  cases call <;> first | exact apart rfl | trivial

/-- Startup makes the flag what it reports. -/
theorem agrees_of_startup (startup : call.isStartup = true) (s : Session σ)
    (value : Except AuthError Value) :
    Agrees (s.concluded call value).state.connected call
      ((s.concluded call value).told value call) := by
  cases call <;> first | rfl | exact ⟨_, rfl, rfl⟩ | contradiction

end Agrees

theorem Call.boards_of_shares {call : Call} (shares : call.isShareable = true) :
    call.boards = true := by
  cases call <;> first | rfl | contradiction

namespace Session

variable [TokenStore σ] {s s' : Session σ} {call : Call} {occasion : Occasion}

/-- Who may board tells how its flight has ended, and leaves the session connected just then. -/
theorem Turn.tells {v : Value} (turn : Turn call s occasion (.ok (.stop (.finish v))) s')
    (boards : call.boards = true) :
    ∃ o, v = call.handshakeValue o ∧ o.isVerified = s'.state.connected := by
  cases turn with
  | isUnready startup => cases call <;> contradiction
  | returns ends => simp [ends.other] at boards
  | lacksWallet only => exact ⟨.walletUnavailable, only ▸ rfl, rfl⟩
  | forgets _ no told | fallsBackVainly _ _ no told =>
    obtain ⟨o, rfl⟩ := told
    rw [HandshakeOutcome.isNo_handshakeValue, Bool.not_eq_true'] at no
    exact ⟨o, rfl, no⟩
  | confirms => exact ⟨.verified, rfl, rfl⟩

/-- Whoever fails to connect a session that is not connected leaves it so. -/
theorem Turn.leaves_apart {e : AuthError} (turn : Turn call s occasion (.error e) s')
    (shares : call.isShareable = true)
    (apart : ∀ a reply, occasion = .answer a reply → s.state.connected = false) :
    s'.state.connected = false := by
  cases turn with
  | fails ends =>
    have idle := ends.other.2
    simp [Call.boards_of_shares shares] at idle
  | cannotCheck checks =>
    cases checks with
    | alone only => simp [shares] at only
    | connected | prompted => exact apart _ _ rfl
  | isRefused | overtaken | givesUp | isRejected | cannotKeep => exact apart _ _ rfl
  | forgetsFailing | fallsBackFailing | isUnanswered => rfl

end Session

namespace World

variable [TokenStore σ] {w w' : World σ} {t : Task} {occasion : Occasion} {lock : Lock}
  {notes : List Note}

/-- Whoever is on its way to a connection finds none when it is answered. -/
theorem Comes.apart (comes : Comes w t occasion lock notes) (orderly : w.Orderly)
    (tallied : w.Tallied) (shares : t.call.isShareable = true) (a : Await)
    (reply : Except AuthError a.Reply) (answered : occasion = .answer a reply) :
    w.session.state.connected = false := by
  subst answered
  cases comes with
  | answered has place =>
    have suits := orderly.suits has
    rw [Task.Suits, place] at suits
    exact tallied.apart ⟨has, place, Await.isAboard_of_boards suits.1 (Call.boards_of_shares shares)⟩
      shares

theorem Returns.agrees {result : Except AuthError Value} (returns : Returns w w' t notes result)
    (orderly : w.Orderly) (tallied : w.Tallied) : Agrees w'.session.state.connected t.call result := by
  cases startup : t.call.isStartup with
  | true =>
    cases returns with
    | ends comes turn moved =>
      rw [moved.session]
      exact agrees_of_startup startup _ _
    | shares has place holds served moved =>
      rw [moved.session]
      exact agrees_of_startup startup _ _
    | observes comes moved only =>
      rw [moved.session, only]
      exact ⟨_, rfl, rfl⟩
  | false =>
    cases boards : t.call.boards with
    | false => exact agrees_of_idle startup boards _
    | true =>
      cases returns with
      | @ends occasion lock notes value s comes turn moved =>
        rw [moved.session, Session.concluded_of_other _ _ startup, Session.told_of_other _ _ startup,
          Session.rested_state]
        cases value with
        | ok v =>
          obtain ⟨o, rfl, same⟩ := turn.tells boards
          exact agrees_of_outcome boards same
        | error e =>
          refine agrees_of_failure boards (fun shares => ?_) e
          exact turn.leaves_apart shares (comes.apart orderly tallied shares)
      | shares has place holds served moved =>
        have connected := (isServed_iff.mp served).2.2
        rw [moved.session, Session.concluded_of_other _ _ startup, Session.told_of_other _ _ startup]
        exact agrees_of_outcome boards connected.symm
      | observes comes moved only => simp [only, Call.isStartup] at startup

/-- In the step in which a call returns, its result and the session agree on the connection. -/
theorem results_agree (reachable : w.Reachable) {action : Action} {notes : List Note}
    (log : (w.step action).log = w.log ++ notes) {id : Nat} {call : Call}
    {result : Except AuthError Value} (returned : .returned id result ∈ notes)
    (started : .started id call ∈ (w.step action).log) :
    Agrees (w.step action).session.state.connected call result := by
  have orderly := reachable.orderly
  obtain ⟨t, rfl, rfl, returns⟩ :=
    (step_moves orderly action).returns orderly reachable.registered log returned started
  exact returns.agrees orderly reachable.tallied

/-- A handshake that was answered to the end, and one that has waited for it. -/
def handedOver : World MemoryStore :=
  (ofSession (Session.create ⟨"", "", ""⟩ true (⟨none⟩ : MemoryStore))).steps
    [.start .handshake false, .start .handshakeOutcome false, .answer 0 .account (.ok "a"),
      .answer 0 .issue (.ok { token := some "t", account := some "a", nonce := some "n" }),
      .answer 0 .signMessage (.ok ⟨true, some { message := "m", nonce := "n", signature := [] }⟩),
      .answer 0 .publicKey (.ok "k"), .answer 0 .verify (.ok { verified := true })]

/-- A result that was shared agrees with the session as well. -/
theorem shared_result_agrees :
    handedOver.Reachable ∧
      (handedOver.step (.wake 1)).log =
        handedOver.log ++ [.returned 1 (.ok (.outcome (.shared true)))] ∧
      .started 1 .handshakeOutcome ∈ (handedOver.step (.wake 1)).log ∧
      ∃ o, .outcome (.shared true) = Value.outcome o ∧
        o.isVerified = (handedOver.step (.wake 1)).session.state.connected := by
  have reachable : handedOver.Reachable := ⟨_, _, _, _, rfl⟩
  have log : (handedOver.step (.wake 1)).log =
      handedOver.log ++ [.returned 1 (.ok (.outcome (.shared true)))] := rfl
  have started : .started 1 .handshakeOutcome ∈ (handedOver.step (.wake 1)).log :=
    List.mem_of_getElem? (i := 4) rfl
  exact ⟨reachable, log, started, results_agree reachable log List.mem_cons_self started⟩

end World

end WalletSession
