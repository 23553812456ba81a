import WalletSession.Proofs.Session.Perform
import WalletSession.Session.Stretch

/-! What checks and handshakes make of an answer. One that arrives in the phase in which it was asked
for has an equation for each way in which the stretch goes on; one that a reset has overtaken is
refused by the edge that it would take, before anything is written. -/
namespace WalletSession.Session

variable {σ : Type} [TokenStore σ]

theorem perform_startHandshake (s : Session σ) (call : Call) :
    s.perform (startHandshake call) =
      match (TokenStore.clear s.store).1 with
      | .ok () =>
        (.ok (if s.hasWallet then .wait .account
          else .finish (call.handshakeValue .walletUnavailable)), s.forgotten)
      | .error e => (.error e, s.forgotten) := by
  simp only [startHandshake, beginHandshake, endHandshake, perform_bind, perform_reset]
  cases (TokenStore.clear s.store).1 with
  | error e => rfl
  | ok =>
    cases wallet : s.hasWallet with
    | true => simp [wallet]
    | false =>
      have apart : HandshakeOutcome.walletUnavailable.isVerified = false := rfl
      have same : s.forgotten.withConnected false = s.forgotten := rfl
      simp [wallet, apart, same]

theorem perform_beginDisconnect (s : Session σ) :
    s.perform beginDisconnect =
      (.ok (.wait (if s.hasWallet then .walletLogout else .revoke)), s.forgotten) := by
  simp only [beginDisconnect, perform_bind, perform_tryCatch, perform_reset]
  cases (TokenStore.clear s.store).1 <;> rfl

/-- A check without a record and one that the backend denies go on alike. -/
def afterForgetting (call : Call) (s : Session σ) : Except AuthError Stop × Session σ :=
  match (TokenStore.clear s.store).1 with
  | .ok () => s.forgotten.perform (afterCheck call false)
  | .error e => (.error e, s.forgotten)

theorem perform_startCheck (s : Session σ) (call : Call) :
    s.perform (startCheck call) =
      if s.state.token.isPresent then
        match transition s.state.phase .revalidate with
        | .ok _ => (.ok (.wait (.status s.state.token)), s.inPhase .revalidating)
        | .error e => (.error e, s)
      else s.afterForgetting call := by
  simp only [startCheck, beginCheck, afterForgetting, perform_bind, perform_get]
  cases present : s.state.token.isPresent with
  | true =>
    simp only [follow, if_true, perform_bind, perform_advance]
    cases s.state.phase <;> rfl
  | false =>
    simp only [Bool.false_eq_true, if_false, perform_bind, perform_reset]
    cases (TokenStore.clear s.store).1 <;> rfl

theorem perform_endCheck_error (s : Session σ) (current : SessionToken) (e : AuthError)
    (inTime : s.state.phase = .revalidating) :
    s.perform (endCheck current (.error e)) =
      (.error e, (s.inPhase .unauthenticated).withConnected false) := by
  simp [endCheck, perform_giveUp, inTime, Phase.isPending]

theorem perform_endCheck_valid (s : Session σ) (call : Call) (current answer : SessionToken)
    (inTime : s.state.phase = .revalidating)
    (valid : (revalidated current answer).verified = true) :
    s.perform (endCheck current (.ok answer) >>= afterCheck call) =
      match (TokenStore.save s.store (revalidated current answer)).1 with
      | .ok () => (.ok (.finish (.flag true)), s.confirmed (revalidated current answer))
      | .error e => (.error e, (s.inPhase .verified).wrote (revalidated current answer)) := by
  simp only [endCheck, valid, if_true, follow, perform_bind, perform_advance, inTime, transition,
    perform_pure, perform_commit, inPhase_store]
  cases (TokenStore.save s.store (revalidated current answer)).1 with
  | error e => rfl
  | ok => cases call <;> rfl

theorem perform_endCheck_invalid (s : Session σ) (call : Call) (current answer : SessionToken)
    (inTime : s.state.phase = .revalidating)
    (invalid : (revalidated current answer).verified = false) :
    s.perform (endCheck current (.ok answer) >>= afterCheck call) = s.afterForgetting call := by
  simp only [endCheck, invalid, Bool.false_eq_true, if_false, perform_bind, perform_advance, inTime,
    transition, perform_apply_clearSession, afterForgetting]
  cases (TokenStore.clear s.store).1 <;> rfl

/-- A check and what follows it are one stretch. -/
theorem resume_status (call : Call) (current : SessionToken)
    (reply : Except AuthError SessionToken) :
    resume call (.status current) reply =
      (do return Move.stop (← endCheck current reply >>= afterCheck call) : Act σ Move) := by
  simp [resume]

theorem perform_resume_status (s : Session σ) (call : Call) (current : SessionToken)
    (reply : Except AuthError SessionToken) :
    s.perform (resume call (.status current) reply) =
      ((s.perform (endCheck current reply >>= afterCheck call)).1.map .stop,
        (s.perform (endCheck current reply >>= afterCheck call)).2) := by
  rw [resume_status, perform_stop]

theorem resume_verify (call : Call) (submission : SignatureSubmission)
    (reply : Except AuthError SessionToken) :
    resume call (.verify submission) reply =
      (do return Move.stop (← onVerified reply >>= fun _ => endHandshake call .verified) :
        Act σ Move) := by
  simp [resume]

omit [TokenStore σ] in
theorem perform_onAccount (s : Session σ) (account : String)
    (inTime : s.state.phase = .unauthenticated) :
    s.perform (onAccount (.ok account)) =
      (.ok (.issue (.withAccount account)), s.inPhase .pendingNonce) := by
  simp [onAccount, follow, perform_advance, inTime, transition]

section Errors

variable (s : Session σ) (e : AuthError)

theorem perform_onIssued_error (draft : SessionToken) (inTime : s.state.phase = .pendingNonce) :
    s.perform (onIssued draft (.error e)) = (.error e, s.inPhase .unauthenticated) := by
  apply perform_orFail_error
  · rfl
  · rw [inTime, Phase.isPending]

theorem perform_onIssued_nonceless {issued : SessionToken} (draft : SessionToken)
    (inTime : s.state.phase = .pendingNonce) (none : issued.nonce = none) :
    s.perform (onIssued draft (.ok issued)) = (.error .missingNonce, s.inPhase .unauthenticated) := by
  apply perform_orFail_error
  · simp only [perform_bind, perform_receive, none, perform_throw]
  · rw [inTime, Phase.isPending]

theorem perform_onSigned_error (inTime : s.state.phase = .pendingSignature) :
    s.perform (onSigned (.error e)) = (.error e, s.inPhase .unauthenticated) := by
  apply perform_orFail_error
  · rfl
  · rw [inTime, Phase.isPending]

omit [TokenStore σ] in
theorem perform_onPublicKey_error (signed : SignedMessage)
    (inTime : s.state.phase = .pendingSignature) :
    s.perform (onPublicKey signed (.error e)) = (.error e, s.inPhase .unauthenticated) := by
  apply perform_orFail_error
  · rfl
  · rw [inTime, Phase.isPending]

theorem perform_onVerified_error (inTime : s.state.phase = .pendingVerification) :
    s.perform (onVerified (.error e)) = (.error e, s.inPhase .unauthenticated) := by
  apply perform_orFail_error
  · rfl
  · rw [inTime, Phase.isPending]

end Errors

theorem perform_onIssued (s : Session σ) {draft issued : SessionToken} {nonce : String}
    (inTime : s.state.phase = .pendingNonce) (given : issued.nonce = some nonce) :
    s.perform (onIssued draft (.ok issued)) =
      match (TokenStore.save s.store (draft.merge issued)).1 with
      | .ok () =>
        (.ok (.signature (.challenge (Wire.encode issued) nonce)),
          ((s.inPhase .pendingSignature).wrote (draft.merge issued)).withToken (draft.merge issued))
      | .error e => (.error e, (s.inPhase .unauthenticated).wrote (draft.merge issued)) := by
  simp only [onIssued, perform_orFail, given, follow, perform_bind, perform_receive,
    perform_advance, inTime, transition, perform_pure, perform_commit, inPhase_store]
  cases (TokenStore.save s.store (draft.merge issued)).1 <;>
    simp [failed, Phase.isPending, wrote, inPhase]

theorem perform_onSigned (s : Session σ) (signed : SignedMessage) :
    s.perform (onSigned (.ok { success := true, result := some signed })) =
      (.ok (some (.publicKey signed)), s) := by
  simp [onSigned, perform_orFail]

theorem perform_onSigned_declined (s : Session σ) (response : SignMessageResponse)
    (inTime : s.state.phase = .pendingSignature)
    (declined : ∀ signed, response ≠ { success := true, result := some signed }) :
    s.perform (onSigned (.ok response)) =
      ((TokenStore.clear s.store).1.map fun _ => none, s.forgotten) := by
  unfold onSigned
  simp only [perform_orFail, perform_bind, perform_receive, perform_advance, inTime, transition,
    perform_apply_clearSession]
  cases (TokenStore.clear s.store).1 <;> simp [failed, Phase.isPending, Except.map]

omit [TokenStore σ] in
theorem perform_onPublicKey (s : Session σ) (signed : SignedMessage) (publicKey : String)
    (inTime : s.state.phase = .pendingSignature) :
    s.perform (onPublicKey signed (.ok publicKey)) =
      (.ok (.verify { signed, publicKey }), s.inPhase .pendingVerification) := by
  simp [onPublicKey, perform_orFail, follow, perform_advance, inTime, transition]

theorem perform_onVerified (s : Session σ) (call : Call) (answer : SessionToken)
    (inTime : s.state.phase = .pendingVerification)
    (valid : (s.state.token.merge answer).verified = true) :
    s.perform (do onVerified (.ok answer); endHandshake call .verified) =
      match (TokenStore.save s.store (s.state.token.merge answer)).1 with
      | .ok () =>
        (.ok (.finish (call.handshakeValue .verified)),
          s.confirmed (s.state.token.merge answer))
      | .error e => (.error e, (s.inPhase .verified).wrote (s.state.token.merge answer)) := by
  simp only [onVerified, perform_orFail, perform_bind, perform_receive, perform_get, valid, if_true,
    follow, perform_advance, inTime, transition, perform_pure, perform_commit, inPhase_store]
  cases (TokenStore.save s.store (s.state.token.merge answer)).1 <;>
    simp [failed, Phase.isPending, endHandshake, HandshakeOutcome.isVerified, confirmed]

theorem perform_onVerified_rejected (s : Session σ) (call : Call) (answer : SessionToken)
    (inTime : s.state.phase = .pendingVerification)
    (invalid : (s.state.token.merge answer).verified = false) :
    s.perform (do onVerified (.ok answer); endHandshake call .verified) =
      match (TokenStore.save s.store (s.state.token.merge answer)).1 with
      | .ok () =>
        (.error .verificationFailed, ((s.inPhase .unauthenticated).wrote
          (s.state.token.merge answer)).withToken (s.state.token.merge answer))
      | .error e => (.error e, (s.inPhase .unauthenticated).wrote (s.state.token.merge answer)) := by
  simp only [onVerified, perform_orFail, perform_bind, perform_receive, perform_get, invalid,
    Bool.false_eq_true, if_false, follow, perform_advance, inTime, transition, perform_pure,
    perform_commit, inPhase_store]
  cases (TokenStore.save s.store (s.state.token.merge answer)).1 <;>
    simp [failed, Phase.isPending]

section Overtaken

variable {s : Session σ} (reset : s.state.phase = .unauthenticated)
include reset

theorem perform_endCheck_overtaken (current : SessionToken)
    (reply : Except AuthError SessionToken) :
    ∃ e, s.perform (endCheck current reply) = (.error e, s) := by
  cases reply with
  | error e => simp [endCheck, perform_giveUp, reset, Phase.isPending]
  | ok answer =>
    cases valid : (revalidated current answer).verified <;>
      simp [endCheck, valid, follow, perform_advance, reset, transition]

theorem perform_onIssued_overtaken (draft : SessionToken) (reply : Except AuthError SessionToken) :
    ∃ e, s.perform (onIssued draft reply) = (.error e, s) := by
  cases reply with
  | error e => simp [onIssued, perform_orFail, failed, reset, Phase.isPending]
  | ok issued =>
    cases given : issued.nonce <;>
      simp [onIssued, perform_orFail, given, follow, perform_advance, reset, transition, failed,
        Phase.isPending]

/-- A signature takes no edge before the public key is known. -/
theorem perform_onSigned_overtaken (reply : Except AuthError SignMessageResponse) :
    (∃ e, s.perform (onSigned reply) = (.error e, s)) ∨
      ∃ signed, reply = .ok { success := true, result := some signed } := by
  unfold onSigned
  simp only [perform_orFail, perform_bind, perform_receive]
  match reply with
  | .error e => simp [failed, reset, Phase.isPending]
  | .ok { success := true, result := some signed } => exact .inr ⟨signed, rfl⟩
  | .ok { success := false, result := _ } | .ok { success := true, result := none } =>
    simp [perform_advance, reset, transition, failed, Phase.isPending]

omit [TokenStore σ] in
theorem perform_onPublicKey_overtaken (signed : SignedMessage) (reply : Except AuthError String) :
    ∃ e, s.perform (onPublicKey signed reply) = (.error e, s) := by
  cases reply <;>
    simp [onPublicKey, perform_orFail, follow, perform_advance, reset, transition, failed,
      Phase.isPending]

theorem perform_onVerified_overtaken (reply : Except AuthError SessionToken) :
    ∃ e, s.perform (onVerified reply) = (.error e, s) := by
  cases reply with
  | error e => simp [onVerified, perform_orFail, failed, reset, Phase.isPending]
  | ok answer =>
    cases valid : (s.state.token.merge answer).verified <;>
      simp [onVerified, perform_orFail, valid, follow, perform_advance, reset, transition, failed,
        Phase.isPending]

end Overtaken

end WalletSession.Session
