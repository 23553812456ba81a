import WalletSession.Proofs.World.Ceremony
import WalletSession.Proofs.World.Checked
import WalletSession.Proofs.World.Interrupted
import WalletSession.Proofs.World.Restart

/-! A handshake that does not end verified. It leaves what its last completed step has made of the
session: nothing before there is a challenge or after the user has declined it, else the challenge, or
what a verification that was refused has made of it. In each case the store holds the same record, and
the session can start over. -/
namespace WalletSession

namespace SessionToken

variable {t issued answer : SessionToken} {account : String}

/-- A record that was made for an account is not the empty one. -/
theorem ne_empty_of_account (made : t.account.isSome = true) : t ≠ {} := by
  rintro rfl
  contradiction

theorem isSome_account_challenge : ((withAccount account).merge issued).account.isSome = true := by
  simp [withAccount]

/-- A challenge that was answered is verified if the answer says so and there is a credential. -/
theorem verified_of_challenge :
    (((withAccount account).merge issued).merge answer).verified = false ↔
      answer.verified = false ∨ answer.token.or issued.token = none := by
  rw [verified_merge, Bool.and_eq_false_iff, isPresent]
  simp [withAccount]

end SessionToken

/-- How a handshake that is not verified has ended: what was said in it, what it tells of that, and the
record that it leaves. -/
inductive FallsShort (hasWallet : Bool) (id : Nat) :
    List Note → Except AuthError HandshakeOutcome → SessionToken → Prop
  | walletless (without : hasWallet = false) :
      FallsShort hasWallet id [] (.ok .walletUnavailable) {}
  /-- Somebody who was asked has failed. -/
  | refused {held : SessionToken} {a : Await} {notes : List Note} {e : AuthError}
      (ceremony : Ceremony id held a notes) :
      FallsShort hasWallet id (notes ++ [.answered id a.method (.error e)]) (.error e)
        (if a.isChallenged then held else {})
  | nonceless {account : String} {issued : SessionToken} (without : issued.nonce = none) :
      FallsShort hasWallet id (challenged id account issued) (.error .missingNonce) {}
  | declined {account nonce : String} {issued : SessionToken} {response : SignMessageResponse}
      (given : issued.nonce = some nonce)
      (declined : ∀ signed, response ≠ { success := true, result := some signed }) :
      FallsShort hasWallet id
        (challenged id account issued ++
          [.asked id (.signMessage (.challenge (Wire.encode issued) nonce) {}),
            .answered id .signMessage (.ok response)])
        (.ok .userDeclined) {}
  | rejected {account nonce publicKey : String} {issued answer : SessionToken}
      {signed : SignedMessage} (given : issued.nonce = some nonce)
      (unbacked : answer.verified = false ∨ answer.token.or issued.token = none) :
      FallsShort hasWallet id
        (keyed id account issued nonce signed publicKey ++
          [.asked id (.verify { signed, publicKey }), .answered id .verify (.ok answer)])
        (.error .verificationFailed) (((SessionToken.withAccount account).merge issued).merge answer)

namespace Ceremony

variable {id : Nat} {held : SessionToken} {a : Await} {notes : List Note}

theorem isOf (ceremony : Ceremony id held a notes) : a.isOf .handshake = true := by
  cases ceremony <;> rfl

theorem made (ceremony : Ceremony id held a notes) (challenged : a.isChallenged = true) :
    held.account.isSome = true := by
  cases ceremony with
  | signature | publicKey | verify => exact SessionToken.isSome_account_challenge
  | _ => contradiction

end Ceremony

variable {σ : Type} [TokenStore σ]

namespace Session

variable {s s' : Session σ} {call : Call} {id : Nat} {notes : List Note} {a : Await}
  {held token : SessionToken} {value : Except AuthError Value}

theorem saved_of_done (done : ∀ deed ∈ (s.wrote token).deeds, deed.succeeded = true) :
    (TokenStore.save s.store token).1 = .ok () := by
  have last := done (.saved token (TokenStore.save s.store token).1.isOk) (by simp)
  cases saved : (TokenStore.save s.store token).1 with
  | ok => rfl
  | error e => simp [saved, Deed.succeeded, Except.isOk, Except.toBool] at last

theorem cleared_of_done (done : ∀ deed ∈ s.forgotten.deeds, deed.succeeded = true) :
    (TokenStore.clear s.store).1 = .ok () := by
  have last := done (.cleared (TokenStore.clear s.store).1.isOk) (by simp)
  cases cleared : (TokenStore.clear s.store).1 with
  | ok => rfl
  | error e => simp [cleared, Deed.succeeded, Except.isOk, Except.toBool] at last

variable [LawfulStore σ]

/-- The session has just this record, in memory and in the store. An empty one is not stored. -/
structure HoldsJust (s : Session σ) (token : SessionToken) : Prop where
  current : s.state.token = token
  stored : LawfulStore.record s.store = if token = {} then none else some (Wire.encode token)

theorem HoldsJust.congr (holds : s.HoldsJust token) (same : s'.state.token = s.state.token)
    (record : LawfulStore.record s'.store = LawfulStore.record s.store) : s'.HoldsJust token :=
  ⟨same.trans holds.current, record.trans holds.stored⟩

theorem Bare.holdsJust (bare : s.Bare) : s.HoldsJust {} := ⟨bare.token, bare.record⟩

theorem HoldsJust.forgotten (cleared : (TokenStore.clear s.store).1 = .ok ()) :
    s.forgotten.HoldsJust {} := ⟨rfl, LawfulStore.clears cleared⟩

theorem HoldsJust.wrote (made : token.account.isSome = true)
    (saved : (TokenStore.save s.store token).1 = .ok ()) :
    ((s.wrote token).withToken token).HoldsJust token where
  current := rfl
  stored := by
    rw [if_neg (SessionToken.ne_empty_of_account made)]
    exact LawfulStore.saves saved

/-- The call has ended so, and the session is at rest with what that leaves. -/
def StopsShort (s : Session σ) (call : Call) (id : Nat) (notes : List Note)
    (value : Except AuthError Value) : Prop :=
  ∃ outcome token, FallsShort s.hasWallet id notes outcome token ∧
    value = outcome.map call.handshakeValue ∧ s.HoldsJust token ∧ s.state.phase = .unauthenticated

omit [TokenStore σ] in
theorem ended_inj (result : Except AuthError Value) {value : Except AuthError Value}
    (same : (result.map fun v => Move.stop (.finish v), s) =
      (value.map fun v => Move.stop (.finish v), s')) : value = result ∧ s' = s := by
  obtain ⟨told, rfl⟩ := Prod.mk.inj same
  cases result <;> cases value <;> simp_all [Except.map]

omit [TokenStore σ] in
theorem not_ended {b : Await}
    (same : (.ok (.stop (.wait b)), s) = (value.map fun v => Move.stop (.finish v), s')) : False := by
  cases value <;> simp [Except.map] at same

section Stages

variable (done : ∀ deed ∈ s'.deeds, deed.succeeded = true)

theorem StopsShort.refused {e : AuthError} (ceremony : Ceremony id held a notes)
    (holds : s.HoldsJust (if a.isChallenged then held else {}))
    (phase : s.state.phase = .unauthenticated) :
    s.StopsShort call id (notes ++ [.answered id a.method (.error e)]) (.error e) :=
  ⟨.error e, _, .refused ceremony, rfl, holds, phase⟩

theorem stopsShort_account (reply : Except AuthError String)
    (inTime : s.state.phase = .unauthenticated) (holds : s.HoldsJust {})
    (performed : s.perform (resume call .account reply) =
      (value.map fun v => .stop (.finish v), s')) :
    s'.StopsShort call id ([.asked id .account] ++ [.answered id .account reply]) value := by
  match reply with
  | .error e =>
    obtain ⟨rfl, rfl⟩ := ended_inj (.error e) performed
    have asked : Ceremony id {} .account _ := .account
    exact .refused asked holds inTime
  | .ok account =>
    -- With an account the handshake goes on, and has not ended.
    simp only [resume, perform_bind, perform_onAccount s account inTime] at performed
    exact (not_ended performed).elim

include done

theorem stopsShort_issue {account : String} (reply : Except AuthError SessionToken)
    (inTime : s.state.phase = .pendingNonce) (holds : s.HoldsJust {})
    (performed : s.perform (resume call (.issue (.withAccount account)) reply) =
      (value.map fun v => .stop (.finish v), s')) :
    s'.StopsShort call id (named id account ++ [.asked id (.issue (.withAccount account))] ++
      [.answered id .issue reply]) value := by
  match reply with
  | .error e =>
    simp only [resume, perform_bind, perform_onIssued_error s e _ inTime] at performed
    obtain ⟨rfl, rfl⟩ := ended_inj (.error e) performed
    have asked : Ceremony id {} (.issue (.withAccount account)) _ := .issue
    exact .refused asked (holds.congr rfl rfl) rfl
  | .ok issued =>
    cases given : issued.nonce with
    | none =>
      simp only [resume, perform_bind, perform_onIssued_nonceless s _ inTime given] at performed
      obtain ⟨rfl, rfl⟩ := ended_inj (.error .missingNonce) performed
      exact ⟨.error .missingNonce, {}, .nonceless given, rfl, holds.congr rfl rfl, rfl⟩
    | some nonce =>
      simp only [resume, perform_bind, perform_onIssued s inTime given] at performed
      cases saved : (TokenStore.save s.store ((SessionToken.withAccount account).merge issued)).1 with
      | ok =>
        rw [saved] at performed
        exact (not_ended performed).elim
      | error e =>
        rw [saved] at performed
        obtain ⟨rfl, rfl⟩ := ended_inj (.error e) performed
        cases saved.symm.trans (saved_of_done done)

theorem stopsShort_signature {account nonce : String} {issued : SessionToken}
    (reply : Except AuthError SignMessageResponse) (given : issued.nonce = some nonce)
    (inTime : s.state.phase = .pendingSignature)
    (holds : s.HoldsJust ((SessionToken.withAccount account).merge issued))
    (performed : s.perform
        (resume call (.signature (.challenge (Wire.encode issued) nonce)) reply) =
      (value.map fun v => .stop (.finish v), s')) :
    s'.StopsShort call id (challenged id account issued ++
      [.asked id (.signMessage (.challenge (Wire.encode issued) nonce) {})] ++
        [.answered id .signMessage reply]) value := by
  match reply with
  | .error e =>
    simp only [resume, perform_bind, perform_onSigned_error s e inTime] at performed
    obtain ⟨rfl, rfl⟩ := ended_inj (.error e) performed
    exact .refused (.signature given) (holds.congr rfl rfl) rfl
  | .ok response =>
    by_cases signs : ∃ signed, response = { success := true, result := some signed }
    · obtain ⟨signed, rfl⟩ := signs
      simp only [resume, perform_bind, perform_onSigned] at performed
      exact (not_ended performed).elim
    · have declined := not_exists.mp signs
      simp only [resume, perform_bind, perform_onSigned_declined s response inTime declined]
        at performed
      cases cleared : (TokenStore.clear s.store).1 with
      | ok =>
        rw [cleared] at performed
        obtain ⟨rfl, rfl⟩ := ended_inj (.ok (call.handshakeValue .userDeclined)) performed
        have forgotten := HoldsJust.forgotten cleared
        exact ⟨.ok .userDeclined, {}, .declined given declined, rfl, forgotten.congr rfl rfl, rfl⟩
      | error e =>
        rw [cleared] at performed
        obtain ⟨rfl, rfl⟩ := ended_inj (.error e) performed
        cases cleared.symm.trans (cleared_of_done done)

omit done in
theorem stopsShort_publicKey {signed : SignedMessage} (reply : Except AuthError String)
    (ceremony : Ceremony id held (.publicKey signed) notes)
    (inTime : s.state.phase = .pendingSignature) (holds : s.HoldsJust held)
    (performed : s.perform (resume call (.publicKey signed) reply) =
      (value.map fun v => .stop (.finish v), s')) :
    s'.StopsShort call id (notes ++ [.answered id .publicKey reply]) value := by
  match reply with
  | .error e =>
    simp only [resume, perform_bind, perform_onPublicKey_error s e signed inTime] at performed
    obtain ⟨rfl, rfl⟩ := ended_inj (.error e) performed
    exact .refused ceremony (holds.congr rfl rfl) rfl
  | .ok publicKey =>
    simp only [resume, perform_bind, perform_onPublicKey s signed publicKey inTime] at performed
    exact (not_ended performed).elim

theorem stopsShort_verify {account nonce publicKey : String} {issued : SessionToken}
    {signed : SignedMessage} (reply : Except AuthError SessionToken)
    (given : issued.nonce = some nonce) (inTime : s.state.phase = .pendingVerification)
    (holds : s.HoldsJust ((SessionToken.withAccount account).merge issued))
    (performed : s.perform (resume call (.verify { signed, publicKey }) reply) =
      (value.map fun v => .stop (.finish v), s'))
    (unverified : value ≠ .ok (call.handshakeValue .verified)) :
    s'.StopsShort call id (keyed id account issued nonce signed publicKey ++
      [.asked id (.verify { signed, publicKey })] ++ [.answered id .verify reply]) value := by
  match reply with
  | .error e =>
    simp only [resume, perform_bind, perform_onVerified_error s e inTime] at performed
    obtain ⟨rfl, rfl⟩ := ended_inj (.error e) performed
    exact .refused (.verify given) (holds.congr rfl rfl) rfl
  | .ok answer =>
    rw [resume_verify, perform_stop] at performed
    cases valid : (s.state.token.merge answer).verified with
    | true =>
      rw [perform_onVerified s call answer inTime valid] at performed
      cases saved : (TokenStore.save s.store (s.state.token.merge answer)).1 with
      | ok =>
        rw [saved] at performed
        exact absurd (ended_inj (.ok (call.handshakeValue .verified)) performed).1 unverified
      | error e =>
        rw [saved] at performed
        obtain ⟨rfl, rfl⟩ := ended_inj (.error e) performed
        cases saved.symm.trans (saved_of_done done)
    | false =>
      rw [perform_onVerified_rejected s call answer inTime valid] at performed
      cases saved : (TokenStore.save s.store (s.state.token.merge answer)).1 with
      | ok =>
        rw [saved] at performed
        obtain ⟨rfl, rfl⟩ := ended_inj (.error .verificationFailed) performed
        -- What is kept is made of the current record, and that is the challenge still.
        rw [holds.current] at valid saved ⊢
        have unbacked := SessionToken.verified_of_challenge.mp valid
        have wrote := HoldsJust.wrote (s := s.inPhase .unauthenticated)
          (by simp [SessionToken.withAccount]) saved
        exact ⟨.error .verificationFailed, _, .rejected given unbacked, rfl, wrote, rfl⟩
      | error e =>
        rw [saved] at performed
        obtain ⟨rfl, rfl⟩ := ended_inj (.error e) performed
        cases saved.symm.trans (saved_of_done done)

theorem stopsShort_flight (shakes : call = .handshake ∨ call = .handshakeOutcome)
    (performed : s.perform (Occasion.flight.work call) = (value.map fun v => .stop (.finish v), s')) :
    s'.StopsShort call id [] value := by
  have flies : (aboard call : Act σ Stop) = startHandshake call := by
    rcases shakes with rfl | rfl <;> rfl
  rw [show s.perform (Occasion.flight.work call) = _ from perform_stop s (aboard call), flies,
    perform_startHandshake] at performed
  cases cleared : (TokenStore.clear s.store).1 with
  | error e =>
    rw [cleared] at performed
    obtain ⟨rfl, rfl⟩ := ended_inj (.error e) performed
    cases cleared.symm.trans (cleared_of_done done)
  | ok =>
    rw [cleared] at performed
    cases wallet : s.hasWallet with
    | true =>
      rw [wallet] at performed
      exact (not_ended performed).elim
    | false =>
      rw [wallet] at performed
      obtain ⟨rfl, rfl⟩ := ended_inj (.ok (call.handshakeValue .walletUnavailable)) performed
      exact ⟨.ok .walletUnavailable, {}, .walletless wallet, rfl, .forgotten cleared, rfl⟩

omit done in
theorem Left.holdsJust {log : List Note} (left : s.Left log id a)
    (ceremony : Ceremony id held a notes) (challenged : a.isChallenged = true)
    (inTime : ∀ own ∈ a.phase?, s.state.phase = own)
    (token : s.state.phase ≠ .unauthenticated → s.state.token = held) : s.HoldsJust held := by
  have underWay : s.state.phase ≠ .unauthenticated := by
    cases ceremony with
    | signature | publicKey | verify =>
      rw [inTime _ rfl]
      decide
    | _ => contradiction
  obtain ⟨_, _, record, _⟩ := left.exact challenged underWay
  refine ⟨token underWay, ?_⟩
  rw [record, token underWay, if_neg (SessionToken.ne_empty_of_account (ceremony.made challenged))]

/-- Whatever answer a handshake ends with, unless it is the one that verifies it. -/
theorem stopsShort_answer {log : List Note} (reply : Except AuthError a.Reply)
    (ceremony : Ceremony id held a notes) (fits : a.Fits s.state.phase)
    (inTime : ∀ own ∈ a.phase?, s.state.phase = own) (left : s.Left log id a)
    (token : s.state.phase ≠ .unauthenticated → s.state.token = held)
    (performed : s.perform (resume call a reply) = (value.map fun v => .stop (.finish v), s'))
    (unverified : value ≠ .ok (call.handshakeValue .verified)) :
    s'.StopsShort call id (notes ++ [.answered id a.method reply]) value := by
  have holds (challenged : a.isChallenged = true) : s.HoldsJust held :=
    left.holdsJust ceremony challenged inTime token
  cases ceremony with
  | account => exact stopsShort_account reply fits (Bare.holdsJust left) performed
  | issue => exact stopsShort_issue done reply (inTime _ rfl) left.1.holdsJust performed
  | signature given =>
    exact stopsShort_signature done reply given (inTime _ rfl) (holds rfl) performed
  | publicKey given =>
    exact stopsShort_publicKey reply (.publicKey given) (inTime _ rfl) (holds rfl) performed
  | verify given =>
    exact stopsShort_verify done reply given (inTime _ rfl) (holds rfl) performed unverified

end Stages

end Session

/-- The history from the first that is noted of a call. -/
def since (id : Nat) (log : List Note) : List Note := log.dropWhile (·.id != id)

theorem subset_since {before later : List Note} {n : Note} {id : Nat} (mine : n.id = id) :
    later ⊆ since id (before ++ n :: later) := by
  unfold since
  induction before with
  | nil => simp [mine]
  | cons first rest ih =>
    rw [List.cons_append, List.dropWhile_cons]
    split
    · exact ih
    · exact fun note member => List.mem_cons_of_mem _ (List.mem_append_right _ (.tail _ member))

theorem not_interrupted {id : Nat} {log more : List Note}
    (calm : ∀ other, .started other .disconnect ∉ since id (log ++ more)) : ¬Interrupted log id := by
  rintro ⟨_, ⟨⟨before, rfl⟩, -⟩, earlier, other, cleared, later, rfl⟩
  refine calm other ?_
  rw [List.append_assoc, List.cons_append]
  refine subset_since (n := .boarded id) rfl ?_
  simp

namespace World

variable {w : World σ} {t : Task} {occasion : Occasion} {lock : Lock} {notes : List Note} {id : Nat}
  {call : Call} [LawfulStore σ]

/-- A stretch that ends a handshake stops it short, unless the handshake is verified. -/
theorem Comes.stopsShort {value : Except AuthError Value} {s : Session σ} (reachable : w.Reachable)
    (comes : Comes w t occasion lock notes) (only : t.call = call)
    (shakes : call = .handshake ∨ call = .handshakeOutcome) (calm : ¬Interrupted w.log t.id)
    (performed : w.session.perform (occasion.work call) =
      (value.map fun v => .stop (.finish v), s))
    (done : ∀ deed ∈ s.deeds, deed.succeeded = true)
    (unverified : value ≠ .ok (call.handshakeValue .verified)) :
    s.StopsShort call t.id (exchange t.id w.log ++ occasion.exchange t.id) value := by
  have orderly := reachable.orderly
  obtain ⟨performs, -⟩ := comes.performs orderly reachable.performing only shakes
  have fits := comes.fits orderly
  cases occasion with
  | start => rcases shakes with rfl | rfl <;> cases value <;> cases performed
  | flight =>
    rw [performs]
    exact Session.stopsShort_flight done shakes performed
  | answer a reply =>
    obtain ⟨held, ceremony, token⟩ := performs
    cases comes with
    | answered has place =>
      obtain ⟨since, aloft, phase⟩ := reachable.unswayed t a ⟨has, place, ceremony.aboard⟩
      -- Nobody disconnected, so the phase is still the one in which the question was asked.
      have inTime : ∀ own ∈ a.phase?, w.session.state.phase = own := fun own edge =>
        (phase own edge).resolve_right fun resets => calm ⟨since, aloft, resets⟩
      have left := reachable.modest t a has place ceremony.isOf
      exact Session.stopsShort_answer done reply ceremony fits.2 inTime left token performed unverified

/-- A handshake that returns without a verified session, though the store did as it was told and
nobody disconnected meanwhile, tells how far it came and leaves just what its last completed step made
of the session, in memory and in the store. The session is at rest. -/
theorem unfinished_handshake_leaves_last_step {action : Action} {result : Except AuthError Value}
    (reachable : w.Reachable) (log : (w.step action).log = w.log ++ notes)
    (started : .started id call ∈ (w.step action).log)
    (shakes : call = .handshake ∨ call = .handshakeOutcome)
    (calm : ∀ other, .started other .disconnect ∉ since id (w.step action).log)
    (stored : ∀ deed, .did id deed ∈ (w.step action).log → deed.succeeded = true)
    (returned : .returned id result ∈ notes)
    (unverified : ∀ outcome : HandshakeOutcome, outcome.isVerified = true →
      result ≠ .ok (call.handshakeValue outcome)) :
    let session := (w.step action).session
    ∃ outcome token,
      FallsShort session.hasWallet id (exchange id (w.step action).log) outcome token ∧
        result = outcome.map call.handshakeValue ∧ session.state.token = token ∧
        LawfulStore.record session.store =
          (if token = {} then none else some (Wire.encode token)) ∧
        session.state.phase = .unauthenticated ∧ session.state.connected = false := by
  intro session
  have orderly := reachable.orderly
  obtain ⟨t, rfl, only, returns⟩ :=
    (step_moves orderly action).returns orderly reachable.registered log returned started
  have other : t.call.isStartup = false := by
    rcases shakes with rfl | rfl <;> exact only ▸ rfl
  cases returns with
  | shares =>
    rw [Session.told_of_other _ _ other, only] at unverified
    exact absurd rfl (unverified (.shared true) rfl)
  | observes _ _ observer => rcases shakes with rfl | rfl <;> cases only.symm.trans observer
  | @ends occasion lock notes value s comes turn moved performed =>
    rw [Session.told_of_other _ _ other] at unverified ⊢
    have done : ∀ deed ∈ s.deeds, deed.succeeded = true := fun deed member =>
      stored deed (moved.log ▸ by simp [member])
    obtain ⟨outcome, token, short, told, holds, phase⟩ := comes.stopsShort reachable only shakes
      (not_interrupted (moved.log ▸ calm)) (only ▸ performed) done (unverified .verified rfl)
    have same : session = s.rested := moved.session.trans (Session.concluded_of_other _ _ other)
    have exchanged : exchange t.id (w.step action).log =
        exchange t.id w.log ++ occasion.exchange t.id := by
      obtain ⟨-, answered⟩ := comes.performs orderly reachable.performing only shakes
      rw [moved.log]
      simp only [exchange_append, answered, exchange_dids, exchange_farewell, List.append_nil]
    have unauthenticated : session.state.phase = .unauthenticated := by
      rw [same]
      exact phase
    refine ⟨outcome, token, ?_, told, ?_, ?_, unauthenticated, ?_⟩
    · rw [exchanged, same]
      exact short
    · rw [same]
      exact holds.current
    · rw [same]
      exact holds.stored
    · exact (reachable.step action).shown.apart unauthenticated (by decide)

/-- A handshake is rejected while a check waits for its turn. -/
theorem rejected_while_check_waits :
    let w : World MemoryStore := (ofSession (Session.create ⟨"", "", ""⟩ true ⟨none⟩)).steps
      [.start .handshakeOutcome false, .start .check false, .answer 0 .account (.ok "a"),
        .answer 0 .issue (.ok { token := some "t", account := some "a", nonce := some "n" }),
        .answer 0 .signMessage (.ok ⟨true, some { message := "m", nonce := "n", signature := [] }⟩),
        .answer 0 .publicKey (.ok "k")]
    let w' := w.step (.answer 0 .verify (.ok {}))
    let token : SessionToken := { token := some "t", account := some "a", nonce := some "n" }
    .started 0 .handshakeOutcome ∈ w'.log ∧
      (∀ other, .started other .disconnect ∉ since 0 w'.log) ∧
      (∀ deed, .did 0 deed ∈ w'.log → deed.succeeded = true) ∧
      .returned 0 (.error .verificationFailed) ∈ w'.log.drop w.log.length ∧
      w'.session.state.token = token ∧
      LawfulStore.record w'.session.store = some (Wire.encode w'.session.state.token) ∧
      w'.session.state.phase = .unauthenticated ∧ w'.session.state.connected = false := by
  intro w w' token
  let issued : SessionToken := { token := some "t", account := some "a", nonce := some "n" }
  let signed : SignedMessage := { message := "m", nonce := "n", signature := [] }
  have reachable : w.Reachable := ⟨_, _, _, _, rfl⟩
  have log : w'.log = w.log ++ w'.log.drop w.log.length := rfl
  have notes : w'.log = [.started 0 .handshakeOutcome, .boarded 0, .did 0 (.cleared true),
    .asked 0 .account, .started 1 .check, .answered 0 .account (.ok "a"),
    .asked 0 (.issue (.withAccount "a")), .answered 0 .issue (.ok issued),
    .did 0 (.saved ((SessionToken.withAccount "a").merge issued) true),
    .asked 0 (.signMessage (.challenge (Wire.encode issued) "n") {}),
    .answered 0 .signMessage (.ok ⟨true, some signed⟩), .asked 0 .publicKey,
    .answered 0 .publicKey (.ok "k"), .asked 0 (.verify { signed, publicKey := "k" }),
    .answered 0 .verify (.ok {}), .did 0 (.saved token true), .landed 0 false,
    .returned 0 (.error .verificationFailed)] := rfl
  have started : .started 0 .handshakeOutcome ∈ w'.log := List.mem_cons_self
  have calm : ∀ other, .started other .disconnect ∉ since 0 w'.log := by
    simp [notes, since, Note.id]
  have stored : ∀ deed, .did 0 deed ∈ w'.log → deed.succeeded = true := by
    simp [notes, Deed.succeeded]
  have returned : .returned 0 (.error .verificationFailed) ∈ w'.log.drop w.log.length :=
    List.mem_of_getElem? (i := 3) rfl
  obtain ⟨_, _, _, _, current, record, phase, apart⟩ :=
    unfinished_handshake_leaves_last_step reachable log started (.inr rfl) calm stored returned
      (by simp)
  have kept : w'.session.state.token = token := rfl
  have made : token ≠ {} := by decide
  refine ⟨started, calm, stored, returned, kept, ?_, phase, apart⟩
  rw [record, ← current, kept, if_neg made]

end World

end WalletSession
