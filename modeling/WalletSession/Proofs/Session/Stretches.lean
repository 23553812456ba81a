import WalletSession.Proofs.Session.Answers
import WalletSession.Proofs.Session.Turn

/-! Every stretch of work is a turn. There is one lemma for each place where a call may have waited,
and `turn` puts them together. -/
namespace WalletSession

namespace Session

variable {σ : Type} [TokenStore σ]

theorem turn_afterForgetting (s : Session σ) {call : Call} {occasion : Occasion}
    (checked : occasion.isCheck = true) (inTime : occasion.InTime s.state.phase)
    (falls : call.isShareable = true → call = .connect) :
    Turn call s occasion ((s.afterForgetting call).1.map .stop) (s.afterForgetting call).2 := by
  unfold afterForgetting
  cases cleared : (TokenStore.clear s.store).1 with
  | error e => exact .forgetsFailing inTime cleared
  | ok =>
    by_cases only : call = .connect
    · subst only
      simp only [afterCheck, perform_startHandshake]
      cases again : (TokenStore.clear s.forgotten.store).1 with
      | error e => exact .fallsBackFailing rfl inTime again
      | ok =>
        cases wallet : s.hasWallet with
        | true => simpa [wallet, Except.map] using .fallsBack rfl checked inTime wallet again
        | false => simpa [wallet, Except.map] using
            .fallsBackVainly rfl inTime rfl ⟨.walletUnavailable, rfl⟩
    · cases call <;> first | contradiction | exact .forgets inTime rfl ⟨.walletUnavailable, rfl⟩

theorem turn_startCheck (s : Session σ) {call : Call} {occasion : Occasion}
    (checks : occasion.Checks call) (falls : call.isShareable = true → call = .connect) :
    Turn call s occasion ((s.perform (startCheck call)).1.map .stop)
      (s.perform (startCheck call)).2 := by
  rw [perform_startCheck]
  cases present : s.state.token.isPresent with
  | false => exact turn_afterForgetting s checks.isCheck (checks.inTime _) falls
  | true =>
    simp only [if_true]
    cases phase : s.state.phase with
    | unauthenticated | verified =>
      exact .revalidates checks present (by simp [phase])
    | _ =>
      have refused : Turn call s occasion _ s := .cannotCheck checks present (by simp [phase])
      simpa [phase, transition, Except.map] using refused

theorem turn_start (s : Session σ) (call : Call) :
    Turn call s .start (s.perform (Occasion.start.work call)).1
      (s.perform (Occasion.start.work call)).2 := by
  cases call with
  | init | observe =>
    simp only [Occasion.work, begin, perform_bind, perform_get, perform_pure]
    cases wallet : s.hasWallet with
    | true => exact .asks (.startup rfl wallet)
    | false => exact .isUnready rfl (.absent wallet)
  | check | connect | handshake | handshakeOutcome => exact .boards rfl
  | disconnect =>
    simp only [Occasion.work, begin, perform_bind, perform_beginDisconnect]
    exact .logsOut rfl (by split <;> simp)
  | balance =>
    simp only [Occasion.work, begin, beginBalance, perform_bind, perform_get, perform_pure]
    cases owner : s.state.token.account with
    | none => exact .returns (.hidden rfl fun _ _ => owner)
    | some account =>
      simp only [perform_pure]
      split
      next shown =>
        obtain ⟨connected, wallet⟩ := Bool.and_eq_true_iff.mp shown
        exact .asks (.balance rfl owner wallet connected)
      next hidden =>
        refine .returns (.hidden rfl fun connected wallet => absurd ?_ hidden)
        rw [connected, wallet, Bool.and_self]
  | topUp amount =>
    simp only [Occasion.work, begin, beginTopUp, perform_bind, perform_get, perform_pure]
    split
    next allowed =>
      obtain ⟨wallet, connected⟩ := Bool.and_eq_true_iff.mp allowed
      exact .asks (.network rfl wallet connected)
    next unfit => exact .returns (.spared rfl (Bool.eq_false_iff.mpr unfit))

theorem Turn.ofStop {s : Session σ} {call : Call} {occasion : Occasion} {work : Act σ Stop}
    (turn : Turn call s occasion ((s.perform work).1.map .stop) (s.perform work).2) :
    Turn call s occasion (s.perform (do return Move.stop (← work))).1
      (s.perform (do return Move.stop (← work))).2 := by
  rwa [perform_stop]

theorem turn_flight (s : Session σ) {call : Call}
    (fits : call.isStartup = true ∨ call.boards = true) :
    Turn call s .flight (s.perform (Occasion.flight.work call)).1
      (s.perform (Occasion.flight.work call)).2 := by
  apply Turn.ofStop
  cases call with
  | init | observe | check => exact turn_startCheck s (.alone rfl) nofun
  | connect =>
    simp only [aboard, perform_bind, perform_setConnected, perform_get, perform_pure,
      withConnected_hasWallet]
    cases wallet : s.hasWallet with
    | true => exact .setsOut rfl wallet
    | false => exact .lacksWallet rfl wallet
  | handshake | handshakeOutcome =>
    simp only [aboard, perform_startHandshake]
    cases cleared : (TokenStore.clear s.store).1 with
    | error e => exact .forgetsFailing trivial cleared
    | ok =>
      cases wallet : s.hasWallet with
      | true => exact .startsOver rfl wallet cleared
      | false => exact .forgets trivial rfl ⟨.walletUnavailable, rfl⟩
  | disconnect | balance | topUp => simp [Call.isStartup, Call.boards] at fits

theorem turn_beforeCheck (s : Session σ) {a : Await} (reply : Except AuthError a.Reply)
    (place : a = .connectedWallet ∨ a = .walletPrompt) :
    Turn .connect s (.answer a reply) (s.perform (Occasion.work .connect (.answer a reply))).1
      (s.perform (Occasion.work .connect (.answer a reply))).2 := by
  rcases place with rfl | rfl
  · apply Turn.ofStop
    simp only [onConnectedWallet, perform_bind]
    match reply with
    | .error e => exact .isRefused rfl rfl rfl
    | .ok false => exact .prompts
    | .ok true => exact turn_startCheck s .connected fun _ => rfl
  · apply Turn.ofStop
    simp only [onWalletPrompt, perform_bind]
    match reply with
    | .error e => exact .isRefused rfl rfl rfl
    | .ok () => exact turn_startCheck s .prompted fun _ => rfl

/-- What a reset has overtaken fails and changes nothing; for a signature this is found out only
with the public key. -/
theorem turn_overtaken {s : Session σ} {call : Call} {a : Await}
    (reply : Except AuthError a.Reply) (edge : a.phase?.isSome = true)
    (reset : s.state.phase = .unauthenticated) :
    Turn call s (.answer a reply) (s.perform (resume call a reply)).1
      (s.perform (resume call a reply)).2 := by
  cases a with
  | status current =>
    obtain ⟨e, refused⟩ := perform_endCheck_overtaken reset current reply
    simp only [resume, perform_bind, refused]
    exact .overtaken edge reset
  | issue draft =>
    obtain ⟨e, refused⟩ := perform_onIssued_overtaken reset draft reply
    simp only [resume, perform_bind, refused]
    exact .overtaken edge reset
  | signature payload =>
    rcases perform_onSigned_overtaken reset reply with ⟨e, refused⟩ | ⟨signed, rfl⟩
    · simp only [resume, perform_bind, refused]
      exact .overtaken edge reset
    · simp only [resume, perform_bind, perform_onSigned]
      exact .signs
  | publicKey signed =>
    obtain ⟨e, refused⟩ := perform_onPublicKey_overtaken reset signed reply
    simp only [resume, perform_bind, refused]
    exact .overtaken edge reset
  | verify submission =>
    obtain ⟨e, refused⟩ := perform_onVerified_overtaken reset reply
    simp only [resume, perform_bind, refused]
    exact .overtaken edge reset
  | _ => contradiction

theorem turn_status {s : Session σ} {call : Call} (current : SessionToken)
    (reply : Except AuthError SessionToken) (falls : call.isShareable = true → call = .connect)
    (inTime : s.state.phase = .revalidating) :
    Turn call s (.answer (.status current) reply)
      (s.perform (resume call (.status current) reply)).1
      (s.perform (resume call (.status current) reply)).2 := by
  rw [resume_status]
  apply Turn.ofStop
  match reply with
  | .error e =>
    simp only [perform_bind, perform_endCheck_error s current e inTime]
    exact .isUnanswered inTime
  | .ok answer =>
    cases valid : (revalidated current answer).verified with
    | false =>
      rw [perform_endCheck_invalid s call current answer inTime valid]
      exact turn_afterForgetting s rfl (inTime ▸ .answer rfl _) falls
    | true =>
      rw [perform_endCheck_valid s call current answer inTime valid]
      have phase : (Await.status current).phase? = some s.state.phase := congrArg some inTime.symm
      have told : Value.flag true = call.handshakeValue .verified := by
        cases call <;> first | rfl | exact absurd (falls rfl) nofun
      cases saved : (TokenStore.save s.store (revalidated current answer)).1 with
      | error e => exact .cannotKeep phase (.renewed valid) saved
      | ok => exact told ▸ .confirms phase (.renewed valid) saved

theorem turn_issue {s : Session σ} {call : Call} (draft : SessionToken)
    (reply : Except AuthError SessionToken) (inTime : s.state.phase = .pendingNonce) :
    Turn call s (.answer (.issue draft) reply) (s.perform (resume call (.issue draft) reply)).1
      (s.perform (resume call (.issue draft) reply)).2 := by
  have phase : (Await.issue draft).phase? = some s.state.phase := congrArg some inTime.symm
  cases reply with
  | error e =>
    simp only [resume, perform_bind, perform_onIssued_error s e draft inTime]
    exact .givesUp phase rfl (.inl rfl)
  | ok issued =>
    cases given : issued.nonce with
    | none =>
      simp only [resume, perform_bind, perform_onIssued_nonceless s draft inTime given]
      exact .givesUp phase rfl (.inr rfl)
    | some nonce =>
      simp only [resume, perform_bind, perform_onIssued s inTime given]
      cases saved : (TokenStore.save s.store (draft.merge issued)).1 with
      | error e => exact .cannotKeep phase (.challenge given) saved
      | ok => exact .keepsChallenge inTime given saved

theorem turn_declined {s : Session σ} {call : Call} (payload : SignMessagePayload)
    {reply : Except AuthError SignMessageResponse} {response : SignMessageResponse}
    (heard : reply = .ok response) (inTime : s.state.phase = .pendingSignature)
    (declined : ∀ signed, response ≠ { success := true, result := some signed }) :
    Turn call s (.answer (.signature payload) reply)
      (s.perform (resume call (.signature payload) reply)).1
      (s.perform (resume call (.signature payload) reply)).2 := by
  have onTime : (Occasion.answer (.signature payload) reply).InTime s.state.phase :=
    inTime ▸ .answer rfl _
  subst heard
  simp only [resume, perform_bind, perform_onSigned_declined s response inTime declined]
  cases cleared : (TokenStore.clear s.store).1 with
  | error e => exact .forgetsFailing onTime cleared
  | ok => exact .forgets onTime (by cases call <;> rfl) ⟨.userDeclined, rfl⟩

theorem turn_signature {s : Session σ} {call : Call} (payload : SignMessagePayload)
    (reply : Except AuthError SignMessageResponse) (inTime : s.state.phase = .pendingSignature) :
    Turn call s (.answer (.signature payload) reply)
      (s.perform (resume call (.signature payload) reply)).1
      (s.perform (resume call (.signature payload) reply)).2 := by
  match reply with
  | .error e =>
    have phase : (Await.signature payload).phase? = some s.state.phase := congrArg some inTime.symm
    simp only [resume, perform_bind, perform_onSigned_error s e inTime]
    exact .givesUp phase rfl (.inl rfl)
  | .ok { success := true, result := some signed } =>
    simp only [resume, perform_bind, perform_onSigned]
    exact .signs
  | .ok { success := false, result } => exact turn_declined payload rfl inTime (by simp)
  | .ok { success := true, result := none } => exact turn_declined payload rfl inTime (by simp)

theorem turn_publicKey {s : Session σ} {call : Call} (signed : SignedMessage)
    (reply : Except AuthError String) (inTime : s.state.phase = .pendingSignature) :
    Turn call s (.answer (.publicKey signed) reply)
      (s.perform (resume call (.publicKey signed) reply)).1
      (s.perform (resume call (.publicKey signed) reply)).2 := by
  match reply with
  | .error e =>
    have phase : (Await.publicKey signed).phase? = some s.state.phase := congrArg some inTime.symm
    simp only [resume, perform_bind, perform_onPublicKey_error s e signed inTime]
    exact .givesUp phase rfl (.inl rfl)
  | .ok publicKey =>
    simp only [resume, perform_bind, perform_onPublicKey s signed publicKey inTime]
    exact .submits inTime

theorem turn_verify {s : Session σ} {call : Call} (submission : SignatureSubmission)
    (reply : Except AuthError SessionToken) (inTime : s.state.phase = .pendingVerification) :
    Turn call s (.answer (.verify submission) reply)
      (s.perform (resume call (.verify submission) reply)).1
      (s.perform (resume call (.verify submission) reply)).2 := by
  have phase : (Await.verify submission).phase? = some s.state.phase := congrArg some inTime.symm
  match reply with
  | .error e =>
    simp only [resume, perform_bind, perform_onVerified_error s e inTime]
    exact .givesUp phase rfl (.inl rfl)
  | .ok answer =>
    rw [resume_verify]
    apply Turn.ofStop
    cases valid : (s.state.token.merge answer).verified with
    | true =>
      rw [perform_onVerified s call answer inTime valid]
      cases saved : (TokenStore.save s.store (s.state.token.merge answer)).1 with
      | error e => exact .cannotKeep phase (.accepted valid) saved
      | ok => exact .confirms phase (.accepted valid) saved
    | false =>
      rw [perform_onVerified_rejected s call answer inTime valid]
      cases saved : (TokenStore.save s.store (s.state.token.merge answer)).1 with
      | error e => exact .cannotKeep phase (.rejected valid) saved
      | ok => exact .isRejected inTime (.rejected valid) saved

theorem turn_account {s : Session σ} {call : Call} (reply : Except AuthError String)
    (inTime : s.state.phase = .unauthenticated) :
    Turn call s (.answer .account reply) (s.perform (resume call .account reply)).1
      (s.perform (resume call .account reply)).2 := by
  match reply with
  | .error e => exact .isRefused rfl rfl rfl
  | .ok account =>
    simp only [resume, perform_bind, perform_onAccount s account inTime]
    exact .starts inTime

theorem turn_network {s : Session σ} (amount : Nat) (reply : Except AuthError Network) :
    Turn (.topUp amount) s (.answer (.network amount) reply)
      (s.perform (resume (.topUp amount) (.network amount) reply)).1
      (s.perform (resume (.topUp amount) (.network amount) reply)).2 := by
  apply Turn.ofStop
  match reply with
  | .error e => exact .fails (.unlocated rfl)
  | .ok network =>
    simp only [onNetwork, perform_bind, perform_get, perform_receive]
    split
    next agreed => exact .asks (.deposit rfl agreed)
    next elsewhere => exact .fails (.astray rfl (Bool.eq_false_iff.mpr elsewhere))

theorem turn_deposit {s : Session σ} (amount : Nat) (payload : EntryFunctionPayload)
    (reply : Except AuthError SubmitResponse) :
    Turn (.topUp amount) s (.answer (.deposit payload) reply)
      (s.perform (resume (.topUp amount) (.deposit payload) reply)).1
      (s.perform (resume (.topUp amount) (.deposit payload) reply)).2 := by
  apply Turn.ofStop
  match reply with
  | .error e => exact .fails (.unsubmitted rfl)
  | .ok response =>
    simp only [onDeposit, perform_bind, perform_receive]
    cases successful : response.success with
    | true => exact .returns (.deposited rfl successful)
    | false => exact .fails (.declined rfl successful)

theorem turn_ashore {s : Session σ} {call : Call} {a : Await} (reply : Except AuthError a.Reply)
    (suits : a.isOf call = true) (outside : a.isAboard = false) :
    Turn call s (.answer a reply) (s.perform (resume call a reply)).1
      (s.perform (resume call a reply)).2 := by
  have ashore : (Occasion.answer a reply).isAshore = true := by simp [Occasion.isAshore, outside]
  cases a with
  | startupWallet =>
    cases reply with
    | error e => exact .isUnready suits (.refused fun told => by cases told)
    | ok connected =>
      cases connected with
      | false => exact .isUnready suits (.refused fun told => by cases told)
      | true => exact .ready
  | walletLogout => exact .asks (.revoke (by simpa [Await.isOf] using suits))
  | revoke => exact .returns (.logout (by simpa [Await.isOf] using suits))
  | balance request =>
    have only : call = .balance := by simpa [Await.isOf] using suits
    cases reply with
    | error e => exact .fails (.unseen only)
    | ok v => exact .returns (.shown only)
  | network amount =>
    obtain rfl : call = .topUp amount := by simpa [Await.isOf] using suits
    exact turn_network amount reply
  | deposit payload =>
    cases call with
    | topUp amount => exact turn_deposit amount payload reply
    | _ => contradiction
  | _ => contradiction

theorem turn (s : Session σ) {call : Call} {occasion : Occasion}
    (fits : occasion.Fits call s.state.phase) :
    Turn call s occasion (s.perform (occasion.work call)).1 (s.perform (occasion.work call)).2 := by
  cases occasion with
  | start => exact turn_start s call
  | flight => exact turn_flight s fits
  | answer a reply =>
    obtain ⟨suits, fits⟩ := fits
    simp only [Occasion.work]
    cases a with
    | connectedWallet | walletPrompt =>
      obtain rfl : call = .connect := by simpa [Await.isOf] using suits
      exact turn_beforeCheck s reply (by simp)
    | account => exact turn_account reply fits
    | status current =>
      rcases fits _ rfl with inTime | reset
      · refine turn_status current reply ?_ inTime
        cases call <;> simp [Await.isOf, Call.isStartup, Call.isShareable] at suits ⊢
      · exact turn_overtaken reply rfl reset
    | issue draft => exact (fits _ rfl).elim (turn_issue draft reply) (turn_overtaken reply rfl)
    | signature payload =>
      exact (fits _ rfl).elim (turn_signature payload reply) (turn_overtaken reply rfl)
    | publicKey signed =>
      exact (fits _ rfl).elim (turn_publicKey signed reply) (turn_overtaken reply rfl)
    | verify submission =>
      exact (fits _ rfl).elim (turn_verify submission reply) (turn_overtaken reply rfl)
    | _ => exact turn_ashore reply suits rfl

end Session

end WalletSession
