import WalletSession.Proofs.World.Alone

/-! Checks that get no answer. A failed check leaves the record alone, in memory and in the store, and
only shows the session as not connected; however many of them there were, the next check that is
answered comes to the same end as if there had been none. -/
namespace WalletSession

/-- Nobody can be reached. -/
def Replies.outage : Replies := fun _ => .error (.transport "")

variable {σ : Type}

namespace Session

/-- After a check that got no answer. -/
def shelved (s : Session σ) : Session σ := (s.inPhase .unauthenticated).withConnected false

/-- What checks without an answer may have made of a session. One that cannot be checked stays as
it is. -/
def Spared (s s' : Session σ) : Prop :=
  s' = s ∨ s.state.phase.isPending = false ∧ s' = s.shelved

theorem Spared.token {s s' : Session σ} (spared : s.Spared s') : s'.state.token = s.state.token := by
  rcases spared with rfl | ⟨_, rfl⟩ <;> rfl

theorem Spared.shelved {s s' : Session σ} (spared : s.Spared s')
    (settled : s'.state.phase.isPending = false) : s.Spared s'.shelved := by
  rcases spared with rfl | ⟨before, rfl⟩
  · exact .inr ⟨settled, rfl⟩
  · exact .inr ⟨before, rfl⟩

variable [TokenStore σ] {s s' last : Session σ} {reply : Replies} {told : List Contact}
  {value : Except AuthError Value} {e : AuthError}

theorem perform_resume_status_error (s : Session σ) (call : Call) (current : SessionToken)
    {answer : Except AuthError SessionToken} (unanswered : answer = .error e)
    (inTime : s.state.phase = .revalidating) :
    s.perform (resume call (.status current) answer) =
      (.error e, (s.inPhase .unauthenticated).withConnected false) := by
  rw [unanswered, perform_resume_status, perform_bind, perform_endCheck_error _ _ _ inTime]
  rfl

/-- The answer decides whether the session is connected, unless the store fails. -/
theorem perform_resume_status_apart (s : Session σ) (call : Call) (current : SessionToken)
    (answer : Except AuthError SessionToken) (inTime : s.state.phase = .revalidating)
    (saves : ∀ record, (TokenStore.save s.store record).1 = .ok ()) :
    (s.withConnected false).perform (resume call (.status current) answer) =
      s.perform (resume call (.status current) answer) := by
  have inTime' : (s.withConnected false).state.phase = .revalidating := inTime
  rw [perform_resume_status, perform_resume_status]
  match answer with
  | .error e =>
    rw [perform_bind, perform_bind, perform_endCheck_error _ _ _ inTime,
      perform_endCheck_error _ _ _ inTime']
    rfl
  | .ok answer =>
    cases valid : (revalidated current answer).verified with
    | true =>
      rw [perform_endCheck_valid _ _ _ _ inTime valid, perform_endCheck_valid _ _ _ _ inTime' valid,
        withConnected_store, saves]
      rfl
    | false =>
      rw [perform_endCheck_invalid _ _ _ _ inTime valid,
        perform_endCheck_invalid _ _ _ _ inTime' valid]
      rfl

section Courses

variable (present : s.state.token.isPresent = true) (rested : s.deeds = [])
include present

theorem perform_check_present (settled : s.state.phase.isPending = false) :
    s.perform (aboard .check) = (.ok (.wait (.status s.state.token)), s.inPhase .revalidating) :=
  perform_startCheck_settled s .check present settled

include rested

theorem plays_unanswered (settled : s.state.phase.isPending = false)
    (unanswered : reply (.status s.state.token) = .error e) :
    Plays reply .check s [.question (.status s.state.token)] (.error e) s.shelved := by
  have failed := perform_resume_status_error (s.inPhase .revalidating).rested .check s.state.token
    unanswered rfl
  have goes := Goes.asks (s := s.inPhase .revalidating) failed .fails
  rw [inPhase_deeds, rested] at goes
  rw [Plays, perform_check_present present settled, ← rested_of_idle (s := s.shelved) rested]
  exact ⟨1, goes⟩

theorem plays_stranded (pending : s.state.phase.isPending = true) :
    Plays reply .check s [] (.error (.invalidTransition s.state.phase .revalidate)) s := by
  have refused : s.perform (aboard .check) = _ :=
    perform_startCheck_stranded s .check present pending
  have fails : Goes reply .check 0 (.error (.invalidTransition s.state.phase .revalidate)) s _ _ _ :=
    .fails
  rw [rested, rested_of_idle rested] at fails
  rw [Plays, refused]
  exact ⟨0, fails⟩

/-- A check goes the same way when checks before it got no answer. -/
theorem Spared.plays (spared : s.Spared s') (plays : Plays reply .check s told value last)
    (saves : ∀ record, (TokenStore.save s.store record).1 = .ok ()) :
    Plays reply .check s' told value last := by
  rcases spared with rfl | ⟨settled, rfl⟩
  · exact plays
  · obtain ⟨n, goes⟩ := plays
    rw [perform_check_present present settled] at goes
    cases goes with
    | @asks n _ _ _ _ _ _ _ performed goes =>
      have resumed := perform_resume_status_apart (s.inPhase .revalidating).rested .check
        s.state.token (reply (.status s.state.token)) rfl saves
      rw [Plays, perform_check_present (s := s.shelved) present rfl]
      exact ⟨n + 1, .asks (s := s.shelved.inPhase .revalidating) (resumed.trans performed) goes⟩

end Courses

end Session

namespace World

variable [TokenStore σ] {w : World σ}

/-- Checks one after the other, each with people of its own. -/
def checks (w : World σ) (attempts : List (Replies × Bool)) : World σ :=
  attempts.foldl (fun w attempt => w.seeThrough attempt.1 .check attempt.2) w

section Unanswered

variable {reply : Replies} {e : AuthError} {s : Session σ}

/-- One that cannot be made changes nothing, and one that gets no answer asks for it and no more. -/
theorem Orderly.checks_vainly (orderly : w.Orderly) (free : w.flight.lock.isFree = true)
    (present : w.session.state.token.isPresent = true)
    (unanswered : reply (.status w.session.state.token) = .error e) (publishes : Bool) :
    (¬w.Stranded ∧ Ended w (w.seeThrough reply .check publishes)
      [.question (.status w.session.state.token)] (.error e) w.session.shelved) ∨
    (w.Stranded ∧ ∃ e, Ended w (w.seeThrough reply .check publishes) [] (.error e) w.session) := by
  cases pending : w.session.state.phase.isPending with
  | false =>
    have able : ¬w.Stranded := fun stranded => Bool.false_ne_true (pending.symm.trans stranded.1)
    exact .inl ⟨able, orderly.sees free rfl
      (Session.plays_unanswered present orderly.rested pending unanswered) publishes⟩
  | true =>
    exact .inr ⟨⟨pending, present⟩, _, orderly.sees free rfl
      (Session.plays_stranded present orderly.rested pending) publishes⟩

/-- Checks without an answer may have brought one world to the other, with nobody on the flight. -/
structure Spared (w w' : World σ) : Prop where
  orderly : w'.Orderly
  free : w'.flight.lock.isFree = true
  session : w.session.Spared w'.session

variable {w' : World σ}

theorem Spared.check (spared : w.Spared w') (present : w.session.state.token.isPresent = true)
    (unanswered : reply (.status w.session.state.token) = .error e) (publishes : Bool) :
    w.Spared (w'.seeThrough reply .check publishes) := by
  have token := spared.session.token
  rw [← token] at present unanswered
  rcases spared.orderly.checks_vainly spared.free present unanswered publishes with
    ⟨able, ended⟩ | ⟨_, _, ended⟩
  · refine ⟨ended.orderly, ended.free, ?_⟩
    rw [ended.session]
    exact spared.session.shelved (Bool.eq_false_iff.mpr fun pending => able ⟨pending, present⟩)
  · refine ⟨ended.orderly, ended.free, ?_⟩
    rw [ended.session]
    exact spared.session

theorem Spared.checks {attempts : List (Replies × Bool)} (spared : w.Spared w')
    (present : w.session.state.token.isPresent = true)
    (unanswered : ∀ attempt ∈ attempts, ∃ e, attempt.1 (.status w.session.state.token) = .error e) :
    w.Spared (w'.checks attempts) := by
  induction attempts generalizing w' with
  | nil => exact spared
  | cons attempt attempts ih =>
    obtain ⟨e, now⟩ := unanswered attempt List.mem_cons_self
    exact ih (spared.check present now attempt.2) fun later member =>
      unanswered later (List.mem_cons_of_mem attempt member)

end Unanswered

variable (reachable : w.Reachable) (free : w.flight.lock.isFree = true)
  (present : w.session.state.token.isPresent = true)
include reachable free present

/-- A check that gets no answer fails as the backend does and shows the session as not connected; the
record stays as it was, in memory and in the store. So any number of them leaves the next check to end
as it would have ended at once. -/
theorem failed_checks_are_harmless :
    (∀ (reply : Replies) (e : AuthError) (publishes : Bool),
      reply (.status w.session.state.token) = .error e →
        let failed := w.seeThrough reply .check publishes
        ∃ notes, failed.log = w.log ++ notes ∧
          (¬w.Stranded → contacts notes = [.question (.status w.session.state.token)] ∧
            lastResult failed.log = some (.error e) ∧
            failed.session.state.token = w.session.state.token ∧
            failed.session.store = w.session.store ∧
            failed.session.state.phase = .unauthenticated ∧
            failed.session.state.connected = false) ∧
          (w.Stranded → contacts notes = [] ∧ failed.session = w.session)) ∧
      ∀ (failing : List (Replies × Bool)) (reply : Replies) (publishes : Bool),
        (∀ attempt ∈ failing, ∃ e, attempt.1 (.status w.session.state.token) = .error e) →
        (∀ record, (TokenStore.save w.session.store record).1 = .ok ()) →
          let after := (w.checks failing).seeThrough reply .check publishes
          let once := w.seeThrough reply .check publishes
          after.session = once.session ∧ lastResult after.log = lastResult once.log := by
  have orderly := reachable.orderly
  constructor
  · intro reply e publishes unanswered failed
    rcases orderly.checks_vainly free present unanswered publishes with
      ⟨able, ended⟩ | ⟨stranded, _, ended⟩
    · obtain ⟨notes, log, asked⟩ := ended.turns_to
      refine ⟨notes, log, fun _ => ⟨asked, ended.result, ?_⟩, fun stranded => absurd stranded able⟩
      rw [ended.session]
      exact ⟨rfl, rfl, rfl, rfl⟩
    · obtain ⟨notes, log, asked⟩ := ended.turns_to
      exact ⟨notes, log, fun able => absurd stranded able, fun _ => ⟨asked, ended.session⟩⟩
  · intro failing reply publishes unanswered saves after once
    obtain ⟨told, value, last, plays⟩ := Session.plays reply w.session
      (show Call.check.boards = true from rfl)
    have spared : w.Spared (w.checks failing) :=
      Spared.checks ⟨orderly, free, .inl rfl⟩ present unanswered
    have now : Ended w once told value last := orderly.sees free rfl plays publishes
    have later : Ended (w.checks failing) after told value last :=
      spared.orderly.sees spared.free rfl
        (spared.session.plays present orderly.rested plays saves) publishes
    exact ⟨later.session.trans now.session.symm, later.result.trans now.result.symm⟩

omit reachable free present in
/-- Two checks of a verified session find the backend out of reach, and the third one finds it back. -/
theorem verified_after_outage :
    let w := (ofSession (Session.create ⟨"", "", ""⟩ true (⟨none⟩ : MemoryStore))).steps
      [.start .handshake false, .answer 0 .account (.ok "a"),
        .answer 0 .issue (.ok { token := some "t", account := some "a", nonce := some "n" }),
        .answer 0 .signMessage (.ok ⟨true, some { message := "m", nonce := "n", signature := [] }⟩),
        .answer 0 .publicKey (.ok "k"), .answer 0 .verify (.ok { verified := true })]
    lastResult (w.seeThrough .outage .check false).log = some (.error (.transport "")) ∧
      ((w.checks [(.outage, false), (.outage, true)]).seeThrough .kind .check false).session =
        (w.seeThrough .kind .check false).session ∧
      (w.seeThrough .kind .check false).session.state.connected = true := by
  intro w
  have reachable : w.Reachable := ⟨_, _, _, _, rfl⟩
  have able : ¬w.Stranded := fun stranded => absurd stranded.1 (by decide)
  obtain ⟨fails, recovers⟩ := failed_checks_are_harmless reachable rfl rfl
  obtain ⟨_, _, harmless, _⟩ := fails .outage (.transport "") false rfl
  obtain ⟨_, told, _⟩ := harmless able
  obtain ⟨same, _⟩ := recovers [(.outage, false), (.outage, true)] .kind false
    (by simp [Replies.outage]) fun _ => rfl
  exact ⟨told, same, by decide +kernel⟩

end World

end WalletSession
