import WalletSession.Proofs.Session.Continued
import WalletSession.Proofs.Token
import WalletSession.Proofs.World.Orderly

/-! A call that asks people who answer well, over a store that fails no more, and with nobody else
about. The stages of a handshake are taken from the last one backwards. -/
namespace WalletSession

def Replies : Type := (q : Request) → Except AuthError q.method.Reply

/-- The wallet is there and signs, and the backend challenges and verifies. What it says of the
status of a record does not matter. -/
structure Replies.Well (reply : Replies) : Prop where
  isConnected : reply .isConnected = .ok true
  connect : reply .connect = .ok ()
  account : ∃ account, reply .account = .ok account
  status (current : SessionToken) : ∃ answer, reply (.status current) = .ok answer
  issue (draft : SessionToken) :
    ∃ issued nonce, reply (.issue draft) = .ok issued ∧ issued.token.isSome = true ∧
      issued.nonce = some nonce
  signMessage (payload : SignMessagePayload) (options : SignOptions) :
    ∃ signed, reply (.signMessage payload options) = .ok { success := true, result := some signed }
  publicKey : ∃ publicKey, reply .publicKey = .ok publicKey
  verify (submission : SignatureSubmission) :
    ∃ answer, reply (.verify submission) = .ok answer ∧ answer.verified = true

/-- Everybody is there and agrees to everything, and the backend takes a record for what it is. -/
def Replies.kind : Replies
  | .isConnected => .ok true
  | .connect | .disconnect => .ok ()
  | .account => .ok "account"
  | .publicKey => .ok "key"
  | .signMessage payload _ =>
    .ok
      { success := true
        result := some { message := payload.message, nonce := payload.nonce, signature := [] } }
  | .issue draft => .ok { draft with token := some "token", nonce := some "nonce" }
  | .status current => .ok current
  | .verify _ => .ok { verified := true }
  | .revoke => .ok true
  | .network | .signAndSubmit _ | .view _ => .error .missingNonce

theorem Replies.kind_well : Replies.kind.Well where
  isConnected := rfl
  connect := rfl
  account := ⟨_, rfl⟩
  status _ := ⟨_, rfl⟩
  issue _ := ⟨_, _, rfl, rfl, rfl⟩
  signMessage _ _ := ⟨_, rfl⟩
  publicKey := ⟨_, rfl⟩
  verify _ := ⟨_, rfl, rfl⟩

variable {σ : Type} [TokenStore σ]

namespace World

/-- Answers the question that a call asks, if it asks one. -/
def respond (w : World σ) (reply : Replies) (id : Nat) : World σ :=
  match w.task? id with
  | some t =>
    match t.place with
    | .asking a => w.step (.answer id a.method (reply a.request))
    | _ => w
  | none => w

def heed (w : World σ) (reply : Replies) (id : Nat) : Nat → World σ
  | 0 => w
  | n + 1 => (w.respond reply id).heed reply id n

/-- The call has a verified record kept, says so to its caller and leaves the session connected. -/
def Succeeds (w : World σ) (id : Nat) (call : Call) (done : World σ) : Prop :=
  done.session.state.connected = true ∧ done.session.state.phase = .verified ∧
    ∃ after, done.log = w.log ++ after ∧
      (∃ token, token.verified = true ∧ .did id (.saved token true) ∈ after) ∧
      .returned id (.ok (call.handshakeValue .verified)) ∈ after

section Questions

variable {w w' done : World σ} {t : Task} {a next : Await} {id : Nat} {call : Call}
  {s : Session σ} {reply : Replies}

theorem answer_eq (has : w.Has t) (place : t.place = .asking a)
    (answer : Except AuthError a.Reply) :
    w.answer t.id a.method answer =
      (w.note (.answered t.id a.method answer)).proceed t (Session.resume t.call a answer) := by
  unfold World.answer
  rw [show w.task? t.id = some t from has]
  simp only [place, dite_true]

theorem respond_eq (has : w.Has t) (place : t.place = .asking a) :
    w.respond reply t.id = w.step (.answer t.id a.method (reply a.request)) := by
  unfold respond
  rw [show w.task? t.id = some t from has]
  simp only [place]

theorem heed_idle (gone : w.task? id = none) (n : Nat) : w.heed reply id n = w := by
  induction n with
  | zero => rfl
  | succ n ih =>
    have same : w.respond reply id = w := by
      unfold respond
      rw [gone]
    rw [heed, same, ih]

theorem respond_steps (w : World σ) (reply : Replies) (id : Nat) :
    ∃ actions, w.respond reply id = w.steps actions := by
  unfold respond
  split
  · split
    next a _ => exact ⟨[.answer id a.method (reply a.request)], rfl⟩
    next => exact ⟨[], rfl⟩
  · exact ⟨[], rfl⟩

theorem heed_steps (w : World σ) (reply : Replies) (id n : Nat) :
    ∃ actions, w.heed reply id n = w.steps actions := by
  induction n generalizing w with
  | zero => exact ⟨[], rfl⟩
  | succ n ih =>
    obtain ⟨now, here⟩ := respond_steps w reply id
    obtain ⟨later, there⟩ := ih (w.respond reply id)
    refine ⟨now ++ later, ?_⟩
    rw [heed, there, here, steps, steps, steps, List.foldl_append]

omit [TokenStore σ] in
theorem Succeeds.earlier {notes : List Note} (succeeds : Succeeds w' id call done)
    (log : w'.log = w.log ++ notes) : Succeeds w id call done := by
  obtain ⟨connected, phase, after, log', ⟨token, verified, kept⟩, told⟩ := succeeds
  refine ⟨connected, phase, notes ++ after, ?_, ⟨token, verified, ?_⟩, ?_⟩
  · rw [log', log, List.append_assoc]
  · exact List.mem_append_right notes kept
  · exact List.mem_append_right notes told

/-- A call that waits goes on with its answer as its stretch does. -/
theorem Orderly.answered (orderly : w.Orderly) (has : w.Has t) (place : t.place = .asking a)
    (answer : Except AuthError a.Reply) (result : Except AuthError Stop)
    (performed : w.session.perform (Session.resume t.call a answer) = (result.map .stop, s)) :
    Moved w t w.flight.lock (rest (result.map .stop)) (settled s.rested t.call (result.map .stop))
      (.answered t.id a.method answer :: s.deeds.map (.did t.id) ++
        closing t w.flight.lock s.rested (result.map .stop))
      (w.step (.answer t.id a.method answer)) := by
  have opened := (orderly.opened has).note (.answered t.id a.method answer)
  rw [World.step, answer_eq has place, opened.proceed_eq performed]
  exact (opened.after s).settle (.inl has) (orderly.not_waiting has place) result

theorem Orderly.responds (orderly : w.Orderly) (has : w.Has t) (place : t.place = .asking a)
    (result : Except AuthError Stop)
    (performed : w.session.perform (Session.resume t.call a (reply a.request)) =
      (result.map .stop, s)) :
    Moved w t w.flight.lock (rest (result.map .stop)) (settled s.rested t.call (result.map .stop))
      (.answered t.id a.method (reply a.request) :: s.deeds.map (.did t.id) ++
        closing t w.flight.lock s.rested (result.map .stop)) (w.respond reply t.id) := by
  rw [respond_eq has place]
  exact orderly.answered has place _ result performed

theorem Orderly.goesOn (orderly : w.Orderly) (has : w.Has t) (place : t.place = .asking a)
    (performed : w.session.perform (Session.resume t.call a (reply a.request)) =
      (.ok (.stop (.wait next)), s)) :
    (w.respond reply t.id).Orderly ∧
      (w.respond reply t.id).Has { t with place := .asking next } ∧
      (w.respond reply t.id).session = s.rested ∧
      ∃ notes, (w.respond reply t.id).log = w.log ++ notes := by
  have moved := orderly.responds has place (.ok (.wait next)) performed
  refine ⟨?_, ?_, moved.session, _, moved.log⟩
  · rw [respond_eq has place]
    exact orderly.step _
  · rw [Has, moved.tasks, if_pos rfl]
    rfl

/-- The call ends, with a record that it has just had kept. -/
theorem Orderly.succeeds {token : SessionToken} (orderly : w.Orderly) (has : w.Has t)
    (place : t.place = .asking a) (other : t.call.isStartup = false)
    (obliging : Obliging w.session.store) (verified : token.verified = true)
    (performed : w.session.perform (Session.resume t.call a (reply a.request)) =
      (.ok (.stop (.finish (t.call.handshakeValue .verified))), w.session.confirmed token))
    (n : Nat) : Succeeds w t.id t.call (w.heed reply t.id (n + 1)) := by
  have moved := orderly.responds has place (.ok (.finish _)) performed
  have gone : (w.respond reply t.id).task? t.id = none := by
    rw [moved.tasks, if_pos rfl]
    rfl
  have kept : (w.session.confirmed token).deeds = [.saved token true] := by
    simp [orderly.rested, obliging.saves, Except.isOk, Except.toBool]
  have session : (w.respond reply t.id).session = (w.session.confirmed token).rested := by
    rw [moved.session]
    exact Session.concluded_of_other _ _ other
  rw [heed, heed_idle gone]
  refine ⟨?_, ?_, _, moved.log, ⟨token, verified, ?_⟩, ?_⟩
  · rw [session]
    rfl
  · rw [session]
    rfl
  · rw [kept]
    simp
  · have told := returned_of_farewell t w.flight.lock (w.session.confirmed token).rested
      (.ok (t.call.handshakeValue .verified)) other
    exact List.mem_append_right _ told

theorem Orderly.fails {e : AuthError} (orderly : w.Orderly) (has : w.Has t)
    (place : t.place = .asking a) (other : t.call.isStartup = false)
    (performed : w.session.perform (Session.resume t.call a (reply a.request)) = (.error e, s))
    (n : Nat) :
    (w.heed reply t.id (n + 1)).session = s.rested ∧
      .returned t.id (.error e) ∈ (w.heed reply t.id (n + 1)).log := by
  have moved := orderly.responds has place (.error e) performed
  have gone : (w.respond reply t.id).task? t.id = none := by
    rw [moved.tasks, if_pos rfl]
    rfl
  have told := returned_of_farewell t w.flight.lock s.rested (.error e) other
  rw [heed, heed_idle gone, moved.session, moved.log]
  refine ⟨Session.concluded_of_other _ _ other, ?_⟩
  exact List.mem_append_right _ (List.mem_append_right _ told)

end Questions

section Stages

/-- The call waits here, in this phase, and from now on the store does as it is asked. -/
structure Stage (w : World σ) (t : Task) (a : Await) (phase : Phase) : Prop where
  orderly : w.Orderly
  has : w.Has t
  place : t.place = .asking a
  other : t.call.isStartup = false
  obliging : Obliging w.session.store
  phase : w.session.state.phase = phase

variable {w : World σ} {t : Task} {a next : Await} {phase : Phase} {reply : Replies}

theorem Stage.goesOn {s : Session σ} {n : Nat} (stage : Stage w t a phase)
    (performed : w.session.perform (Session.resume t.call a (reply a.request)) =
      (.ok (.stop (.wait next)), s))
    (obliging : Obliging s.store)
    (later : ∀ {w' : World σ},
      Stage w' { t with place := .asking next } next s.state.phase → w'.session = s.rested →
        Succeeds w' t.id t.call (w'.heed reply t.id n)) :
    Succeeds w t.id t.call (w.heed reply t.id (n + 1)) := by
  obtain ⟨orderly, has, session, _, log⟩ := stage.orderly.goesOn stage.has stage.place performed
  refine (later ⟨orderly, has, rfl, stage.other, ?_, ?_⟩ session).earlier log
  · rwa [session]
  · rw [session, Session.rested_state]

variable (well : reply.Well)
include well

theorem Stage.verify {submission : SignatureSubmission}
    (stage : Stage w t (.verify submission) .pendingVerification)
    (present : w.session.state.token.isPresent = true) (n : Nat) :
    Succeeds w t.id t.call (w.heed reply t.id (n + 1)) := by
  obtain ⟨answer, heard, verified⟩ := well.verify submission
  have valid := SessionToken.verified_of_answer present verified
  exact stage.orderly.succeeds stage.has stage.place stage.other stage.obliging valid
    (Session.perform_resume_verify _ _ stage.obliging submission heard stage.phase valid) n

theorem Stage.publicKey {signed : SignedMessage}
    (stage : Stage w t (.publicKey signed) .pendingSignature)
    (present : w.session.state.token.isPresent = true) (n : Nat) :
    Succeeds w t.id t.call (w.heed reply t.id (n + 2)) := by
  obtain ⟨publicKey, heard⟩ := well.publicKey
  have performed := Session.perform_resume_publicKey w.session t.call signed heard stage.phase
  refine stage.goesOn performed stage.obliging fun stage session => ?_
  exact stage.verify well (by rwa [session]) n

theorem Stage.signature {payload : SignMessagePayload}
    (stage : Stage w t (.signature payload) .pendingSignature)
    (present : w.session.state.token.isPresent = true) (n : Nat) :
    Succeeds w t.id t.call (w.heed reply t.id (n + 3)) := by
  obtain ⟨signed, heard⟩ := well.signMessage payload {}
  have performed := Session.perform_resume_signature w.session t.call payload heard
  refine stage.goesOn performed stage.obliging fun next session => ?_
  rw [stage.phase] at next
  exact next.publicKey well (by rwa [session]) n

theorem Stage.issue {account : String}
    (stage : Stage w t (.issue (.withAccount account)) .pendingNonce) (n : Nat) :
    Succeeds w t.id t.call (w.heed reply t.id (n + 4)) := by
  obtain ⟨issued, nonce, heard, given, challenge⟩ := well.issue (.withAccount account)
  have performed := Session.perform_resume_issue w.session t.call stage.obliging
    (.withAccount account) heard stage.phase challenge
  refine stage.goesOn performed (stage.obliging.saved _) fun stage session => ?_
  refine stage.signature well ?_ n
  rw [session]
  exact SessionToken.isPresent_of_issued account given

/-- A handshake that was reset before its first edge does not know. -/
theorem Stage.account (stage : Stage w t .account .unauthenticated) (n : Nat) :
    Succeeds w t.id t.call (w.heed reply t.id (n + 5)) := by
  obtain ⟨account, heard⟩ := well.account
  have performed := Session.perform_resume_account w.session t.call heard stage.phase
  refine stage.goesOn performed stage.obliging fun stage _ => ?_
  exact stage.issue well n

theorem Stage.status {current : SessionToken} (stage : Stage w t (.status current) .revalidating)
    (only : t.call = .connect) (wallet : w.session.hasWallet = true) (n : Nat) :
    Succeeds w t.id t.call (w.heed reply t.id (n + 6)) := by
  obtain ⟨answer, heard⟩ := well.status current
  cases valid : (Session.revalidated current answer).verified with
  | true =>
    have performed := Session.perform_resume_status_valid w.session stage.obliging heard
      stage.phase valid
    have told : Value.flag true = t.call.handshakeValue .verified := by rw [only]; rfl
    rw [← only, told] at performed
    exact stage.orderly.succeeds stage.has stage.place stage.other stage.obliging valid performed _
  | false =>
    have performed := Session.perform_resume_status_invalid w.session stage.obliging wallet heard
      stage.phase valid
    rw [← only] at performed
    refine stage.goesOn performed stage.obliging.cleared.cleared fun stage _ => ?_
    exact stage.account well n

/-- A call that is about to look at its record succeeds, unless there is one and the phase of some
earlier run is in its way. -/
theorem Stage.check (stage : Stage w t a phase) (only : t.call = .connect)
    (checks : Occasion.Checks .connect (.answer a (reply a.request)))
    (wallet : w.session.hasWallet = true)
    (able : w.session.state.token.isPresent = true → w.session.state.phase.isPending = false)
    (n : Nat) : Succeeds w t.id t.call (w.heed reply t.id (n + 7)) := by
  have performed := Session.perform_resume_beforeCheck w.session checks
  rw [Session.perform_startCheck_connect _ stage.obliging wallet able, ← only] at performed
  cases present : w.session.state.token.isPresent with
  | true =>
    rw [present] at performed
    refine stage.goesOn performed stage.obliging fun stage session => ?_
    exact stage.status well only (by rwa [session]) n
  | false =>
    rw [present] at performed
    refine stage.goesOn performed stage.obliging.cleared.cleared fun stage _ => ?_
    exact stage.account well (n + 1)

end Stages

end World

end WalletSession
