import WalletSession.Proofs.Session.Trusted
import WalletSession.Proofs.World.Orderly

/-! Connected means verified, whatever happened before: the phase says so, the record in memory says
so, the store holds the same record, and the last record that it took came from an answer of the
backend that says so. -/
namespace WalletSession

variable {σ : Type} [TokenStore σ]

/-- The backend answers that a record is verified, and the session makes a record of it. -/
inductive Confirms (id : Nat) : Note → SessionToken → Prop
  | status {current answer : SessionToken} (verified : answer.verified = true) :
      Confirms id (.answered id .status (.ok answer)) (Session.revalidated current answer)
  | verify {held answer : SessionToken} (verified : answer.verified = true) :
      Confirms id (.answered id .verify (.ok answer)) (held.merge answer)

/-- This is the last record that the store has taken, and an answer has confirmed it. -/
def LastKept (log : List Note) (token : SessionToken) : Prop :=
  ∃ (before : List Note) (id : Nat) (answer : Note) (after : List Note),
    log = before ++ answer :: .did id (.saved token true) :: after ∧ Confirms id answer token ∧
      ∀ other token', .did other (.saved token' true) ∉ after

theorem LastKept.append {log notes : List Note} {token : SessionToken} (kept : LastKept log token)
    (quiet : ∀ id token', .did id (.saved token' true) ∉ notes) : LastKept (log ++ notes) token := by
  obtain ⟨before, id, answer, after, rfl, confirms, last⟩ := kept
  refine ⟨before, id, answer, after ++ notes, by simp, confirms, fun other token' member => ?_⟩
  exact (List.mem_append.mp member).elim (last other token') (quiet other token')

theorem LastKept.later {notes : List Note} {token : SessionToken} (kept : LastKept notes token)
    (log : List Note) : LastKept (log ++ notes) token := by
  obtain ⟨before, id, answer, after, rfl, confirms, last⟩ := kept
  exact ⟨log ++ before, id, answer, after, by simp, confirms, last⟩

namespace Session

variable {s s' : Session σ} {call : Call} {occasion : Occasion} {result : Except AuthError Move}

theorem confirms_of_keeps {held token : SessionToken} {a : Await} {reply : Except AuthError a.Reply}
    (keeps : Keeps held a reply token .verified) (id : Nat) :
    Confirms id (.answered id a.method reply) token := by
  cases keeps with
  | renewed valid => exact .status (SessionToken.verified_of_merge valid)
  | accepted valid => exact .verify (SessionToken.verified_of_merge valid)

/-- A stretch that leaves the session connected has left it alone, or has just had it confirmed. -/
theorem Turn.connected [LawfulStore σ] (turn : Turn call s occasion result s')
    (trusted : s.Trusted) (rested : s.deeds = []) (connected : s'.state.connected = true) :
    (s.state.connected = true ∧ s'.state.token = s.state.token ∧
        ∀ token, .saved token true ∉ s'.deeds) ∨
      ∃ a reply, occasion = .answer a reply ∧ s'.deeds = [.saved s'.state.token true] ∧
        Keeps s.state.token a reply s'.state.token .verified := by
  cases turn with
  | boards | ready | asks | isUnready | returns | fails | prompts | isRefused | cannotCheck | overtaken
  | signs | revalidates | starts | submits | givesUp => exact .inl ⟨connected, rfl, by simp [rested]⟩
  | logsOut | forgetsFailing | forgets | startsOver | fallsBackFailing | fallsBackVainly
  | fallsBack | setsOut | lacksWallet | isUnanswered => contradiction
  | keepsChallenge phase | isRejected phase =>
    have apart := trusted.shown.apart phase (by decide)
    exact absurd connected (by simp [apart])
  | confirms edge keeps saved =>
    exact .inr ⟨_, _, rfl, by simp [rested, saved, Except.isOk, Except.toBool], keeps⟩
  | cannotKeep edge keeps unsaved =>
    exact .inl ⟨connected, rfl, by simp [rested, unsaved, Except.isOk, Except.toBool]⟩

/-- Startup reports a connection only of a session that is connected. -/
theorem Turn.succeeds {v : Value} (turn : Turn call s occasion (.ok (.stop (.finish v))) s')
    (startup : call.isStartup = true) (yes : World.startupSucceeded (.ok v) = true) :
    s'.state.connected = true := by
  have no (isNo : v.isNo = true) : False := by
    cases v <;> simp_all [Value.isNo, World.startupSucceeded]
  cases turn with
  | isUnready | lacksWallet => exact (no rfl).elim
  | returns ends => simp [ends.other] at startup
  | forgets _ isNo | fallsBackVainly _ _ isNo => exact (no isNo).elim
  | confirms => rfl

theorem Turn.connected_of_settled (turn : Turn call s occasion result s')
    (connected : (World.settled s'.rested call result).state.connected = true) :
    s'.state.connected = true := by
  match result with
  | .ok (.stop (.wait a)) | .ok .board => exact connected
  | .ok (.stop (.finish v)) => exact connected_of_concluded (s := s'.rested) turn.succeeds connected
  | .error e =>
    have fails : World.startupSucceeded (.error e) = false := rfl
    exact connected_of_concluded (s := s'.rested) (by simp [fails]) connected

/-- Whatever became of a trusted session without its record, store and phase is trusted, if it is
not connected for that alone. -/
theorem Trusted.keeps [LawfulStore σ] (trusted : s.Trusted) (phase : s'.state.phase = s.state.phase)
    (token : s'.state.token = s.state.token) (store : s'.store = s.store)
    (connected : s'.state.connected = true → s.state.connected = true) : s'.Trusted where
  backed := token ▸ trusted.backed
  shown now := phase ▸ trusted.shown (connected now)
  verified now := token ▸ trusted.verified (connected now)
  stored now := by
    rw [token, store]
    exact trusted.stored (connected now)

end Session

namespace World

variable {w w' : World σ} {t : Task} {occasion : Occasion} {lock : Lock} {notes : List Note}

theorem Moves.shown {id : Nat} (moves : Moves w w' id) (orderly : w.Orderly)
    (shown : w.session.Shown) : w'.session.Shown := by
  intro connected
  cases moves.sorts orderly with
  | idle same =>
    subst same
    exact shown connected
  | turns comes turn moved =>
    rw [moved.session] at connected ⊢
    rw [settled_phase]
    exact turn.shown shown (turn.connected_of_settled connected)
  | quiet moved _ quiet =>
    rw [moved.session] at connected ⊢
    rw [quiet.phase]
    exact shown (quiet.connected connected)

theorem Reachable.shown (reachable : w.Reachable) : w.session.Shown :=
  reachable.induction (fun _ _ _ => nofun)
    fun _ action orderly => (step_moves orderly action).shown orderly

/-- The session is connected as it was, or has had its record confirmed and kept with these notes. -/
inductive Sustains (s s' : Session σ) (notes : List Note) : Prop
  | on (connected : s.state.connected = true) (token : s'.state.token = s.state.token)
      (quiet : ∀ id token, .did id (.saved token true) ∉ notes) : Sustains s s' notes
  | anew (kept : LastKept notes s'.state.token) : Sustains s s' notes

section Sustains

variable [LawfulStore σ]

theorem sustains_turns {result : Except AuthError Move} {s : Session σ} (orderly : w.Orderly)
    (trusted : w.session.Trusted) (comes : Comes w t occasion lock notes)
    (turn : Session.Turn t.call w.session occasion result s)
    (now : (settled s.rested t.call result).state.connected = true) :
    Sustains w.session (settled s.rested t.call result)
      (notes ++ s.deeds.map (.did t.id) ++ closing t lock s.rested result) := by
  rcases turn.connected trusted orderly.rested (turn.connected_of_settled now) with
    ⟨before, same, quiet⟩ | ⟨a, reply, rfl, kept, keeps⟩
  · refine .on before (by rw [settled_token, Session.rested_state, same]) fun id token' member => ?_
    simp only [List.mem_append, List.mem_map] at member
    rcases member with (noted | ⟨deed, member, same⟩) | closed
    · exact comes.undone _ _ noted
    · cases same
      exact quiet _ member
    · exact closing_undone _ _ _ _ closed
  · cases comes with
    | answered has place _ =>
      refine .anew ?_
      rw [settled_token, Session.rested_state]
      exact ⟨[], t.id, _, closing t w.flight.lock s.rested result, by simp [kept],
        Session.confirms_of_keeps keeps t.id, fun _ _ => closing_undone _ _ _ _⟩

theorem Moves.sustains {id : Nat} (moves : Moves w w' id) (orderly : w.Orderly)
    (trusted : w.session.Trusted) :
    ∃ notes, w'.log = w.log ++ notes ∧
      (w'.session.state.connected = true → Sustains w.session w'.session notes) := by
  cases moves.sorts orderly with
  | idle same =>
    subst same
    exact ⟨[], by simp, fun connected => .on connected rfl (by simp)⟩
  | turns comes turn moved =>
    refine ⟨_, moved.log, fun connected => ?_⟩
    rw [moved.session] at connected ⊢
    exact sustains_turns orderly trusted comes turn connected
  | quiet moved _ quiet =>
    refine ⟨_, moved.log, fun connected => ?_⟩
    rw [moved.session] at connected ⊢
    exact .on (quiet.connected connected) quiet.token fun id token => quiet.undone id _

end Sustains

omit [TokenStore σ] in
/-- What is kept in the end of a history is kept as long as the session holds on to it. -/
theorem Sustains.lastKept {s s' : Session σ} {log : List Note} (sustains : Sustains s s' notes)
    (kept : s.state.connected = true → LastKept log s.state.token) :
    LastKept (log ++ notes) s'.state.token := by
  cases sustains with
  | on connected token quiet => exact token ▸ (kept connected).append quiet
  | anew kept' => exact kept'.later log

/-- What a connected session stands on. -/
structure Trusted [LawfulStore σ] (w : World σ) : Prop where
  session : w.session.Trusted
  kept (connected : w.session.state.connected = true) : LastKept w.log w.session.state.token

variable [LawfulStore σ]

theorem Moves.trusted {id : Nat} (moves : Moves w w' id) (orderly : w.Orderly)
    (trusted : w.Trusted) : w'.Trusted where
  session := by
    cases moves.sorts orderly with
    | idle same => exact same ▸ trusted.session
    | turns comes turn moved =>
      rw [moved.session]
      exact (turn.trusted trusted.session).keeps (by simp) (by simp) (by simp)
        turn.connected_of_settled
    | quiet moved _ quiet =>
      rw [moved.session]
      exact trusted.session.keeps quiet.phase quiet.token quiet.store quiet.connected
  kept now := by
    obtain ⟨notes, log, sustains⟩ := moves.sustains orderly trusted.session
    rw [log]
    exact (sustains now).lastKept trusted.kept

theorem Reachable.trusted (reachable : w.Reachable) : w.Trusted :=
  reachable.induction
    (fun chain hasWallet store => ⟨.create chain hasWallet store, nofun⟩)
    (fun _ action orderly => (step_moves orderly action).trusted orderly)

/-- Connected means verified. -/
theorem connected_is_verified (reachable : w.Reachable) :
    (w.session.state.token.verified = true →
        w.session.state.token.token.isSome = true ∧ w.session.state.token.account.isSome = true) ∧
      (w.session.state.connected = true →
        (w.session.state.phase = .verified ∨ w.session.state.phase = .revalidating) ∧
        w.session.state.token.isPresent = true ∧ w.session.state.token.verified = true ∧
        LawfulStore.record w.session.store = some (Wire.encode w.session.state.token) ∧
        LastKept w.log w.session.state.token) := by
  obtain ⟨session, kept⟩ := reachable.trusted
  refine ⟨fun claims => ?_, fun connected => ?_⟩
  · simpa [SessionToken.isPresent] using session.backed claims
  · exact ⟨session.shown connected, session.backed (session.verified connected),
      session.verified connected, session.stored connected, kept connected⟩

/-- After a handshake the session is connected, and stays so while it is checked again. -/
theorem connected_during_check :
    let w := (ofSession (Session.create ⟨"", "", ""⟩ true (⟨none⟩ : MemoryStore))).steps
      [.start .handshake false, .answer 0 .account (.ok "a"),
        .answer 0 .issue (.ok { token := some "t", account := some "a", nonce := some "n" }),
        .answer 0 .signMessage (.ok ⟨true, some { message := "m", nonce := "n", signature := [] }⟩),
        .answer 0 .publicKey (.ok "k"), .answer 0 .verify (.ok { verified := true }),
        .start .check false]
    w.session.state.connected = true ∧ w.session.state.phase = .revalidating ∧
      w.session.state.token.isPresent = true ∧ LastKept w.log w.session.state.token := by
  intro w
  have reachable : w.Reachable := ⟨_, _, _, _, rfl⟩
  have connected : w.session.state.connected = true := rfl
  obtain ⟨phase, present, verified, stored, kept⟩ := (connected_is_verified reachable).2 connected
  exact ⟨connected, rfl, present, kept⟩

end World

end WalletSession
