import WalletSession.Proofs.Session.Answers
import WalletSession.Proofs.Session.Turn
import WalletSession.Proofs.Store.Obliging

/-! How a call goes on when it is answered in time and well, over a store that fails no more. -/
namespace WalletSession.Session

variable {σ : Type} [TokenStore σ]

section Handshake

variable (s : Session σ) (call : Call)

theorem perform_resume_account {reply : Except AuthError String} {account : String}
    (heard : reply = .ok account) (inTime : s.state.phase = .unauthenticated) :
    s.perform (resume call .account reply) =
      (.ok (.stop (.wait (.issue (.withAccount account)))), s.inPhase .pendingNonce) := by
  subst heard
  simp only [resume, perform_bind, perform_onAccount s account inTime, perform_pure]

theorem perform_resume_issue (obliging : Obliging s.store) (draft : SessionToken)
    {reply : Except AuthError SessionToken} {issued : SessionToken} {nonce : String}
    (heard : reply = .ok issued)
    (inTime : s.state.phase = .pendingNonce) (given : issued.nonce = some nonce) :
    s.perform (resume call (.issue draft) reply) =
      (.ok (.stop (.wait (.signature (.challenge (Wire.encode issued) nonce)))),
        ((s.inPhase .pendingSignature).wrote (draft.merge issued)).withToken
          (draft.merge issued)) := by
  subst heard
  simp only [resume, perform_bind, perform_onIssued s inTime given, obliging.saves, perform_pure]

theorem perform_resume_signature {reply : Except AuthError SignMessageResponse}
    {signed : SignedMessage} (payload : SignMessagePayload)
    (heard : reply = .ok { success := true, result := some signed }) :
    s.perform (resume call (.signature payload) reply) =
      (.ok (.stop (.wait (.publicKey signed))), s) := by
  subst heard
  simp only [resume, perform_bind, perform_onSigned, perform_pure]

theorem perform_resume_publicKey {reply : Except AuthError String} {publicKey : String}
    (signed : SignedMessage) (heard : reply = .ok publicKey)
    (inTime : s.state.phase = .pendingSignature) :
    s.perform (resume call (.publicKey signed) reply) =
      (.ok (.stop (.wait (.verify { signed, publicKey }))), s.inPhase .pendingVerification) := by
  subst heard
  simp only [resume, perform_bind, perform_onPublicKey s signed publicKey inTime, perform_pure]

theorem perform_resume_verify (obliging : Obliging s.store)
    {reply : Except AuthError SessionToken} {answer : SessionToken}
    (submission : SignatureSubmission) (heard : reply = .ok answer)
    (inTime : s.state.phase = .pendingVerification)
    (valid : (s.state.token.merge answer).verified = true) :
    s.perform (resume call (.verify submission) reply) =
      (.ok (.stop (.finish (call.handshakeValue .verified))),
        s.confirmed (s.state.token.merge answer)) := by
  subst heard
  rw [resume_verify, perform_stop, perform_onVerified s call answer inTime valid, obliging.saves]
  rfl

end Handshake

section Check

variable (s : Session σ)

theorem afterForgetting_connect (obliging : Obliging s.store) (wallet : s.hasWallet = true) :
    s.afterForgetting .connect = (.ok (.wait .account), s.forgotten.forgotten) := by
  simp [afterForgetting, obliging.clears, obliging.cleared.clears, afterCheck,
    perform_startHandshake, wallet]

theorem perform_resume_status_valid (obliging : Obliging s.store)
    {reply : Except AuthError SessionToken} {current answer : SessionToken}
    (heard : reply = .ok answer) (inTime : s.state.phase = .revalidating)
    (valid : (revalidated current answer).verified = true) :
    s.perform (resume .connect (.status current) reply) =
      (.ok (.stop (.finish (.flag true))), s.confirmed (revalidated current answer)) := by
  subst heard
  rw [resume_status, perform_stop, perform_endCheck_valid s .connect current answer inTime valid,
    obliging.saves]
  rfl

theorem perform_resume_status_invalid (obliging : Obliging s.store) (wallet : s.hasWallet = true)
    {reply : Except AuthError SessionToken} {current answer : SessionToken}
    (heard : reply = .ok answer) (inTime : s.state.phase = .revalidating)
    (invalid : (revalidated current answer).verified = false) :
    s.perform (resume .connect (.status current) reply) =
      (.ok (.stop (.wait .account)), s.forgotten.forgotten) := by
  subst heard
  rw [resume_status, perform_stop,
    perform_endCheck_invalid s .connect current answer inTime invalid,
    afterForgetting_connect s obliging wallet]
  rfl

/-- The wallet is connected, or has just been. -/
theorem perform_resume_beforeCheck {a : Await} {reply : Except AuthError a.Reply}
    (checks : Occasion.Checks .connect (.answer a reply)) :
    s.perform (resume .connect a reply) =
      ((s.perform (startCheck .connect)).1.map .stop, (s.perform (startCheck .connect)).2) := by
  cases checks <;> exact perform_stop s (startCheck .connect)

theorem perform_startCheck_settled (call : Call) (present : s.state.token.isPresent = true)
    (settled : s.state.phase.isPending = false) :
    s.perform (startCheck call) = (.ok (.wait (.status s.state.token)), s.inPhase .revalidating) := by
  rw [perform_startCheck, if_pos present]
  cases phase : s.state.phase <;> simp_all [Phase.isPending, transition]

theorem perform_startCheck_stranded (call : Call) (present : s.state.token.isPresent = true)
    (pending : s.state.phase.isPending = true) :
    s.perform (startCheck call) = (.error (.invalidTransition s.state.phase .revalidate), s) := by
  rw [perform_startCheck, if_pos present]
  cases phase : s.state.phase <;> simp_all [Phase.isPending, transition]

theorem perform_startCheck_connect (obliging : Obliging s.store) (wallet : s.hasWallet = true)
    (able : s.state.token.isPresent = true → s.state.phase.isPending = false) :
    s.perform (startCheck .connect) =
      if s.state.token.isPresent then
        (.ok (.wait (.status s.state.token)), s.inPhase .revalidating)
      else (.ok (.wait .account), s.forgotten.forgotten) := by
  cases present : s.state.token.isPresent with
  | true => rw [perform_startCheck_settled s .connect present (able present), if_pos rfl]
  | false =>
    rw [perform_startCheck, present, afterForgetting_connect s obliging wallet]
    rfl

end Check

end WalletSession.Session
