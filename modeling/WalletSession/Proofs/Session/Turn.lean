import WalletSession.Proofs.Session.Perform
import WalletSession.Session.Stretch

/-! What one stretch of work may do to a session. `Turn` has a constructor for each way in which a
stretch can end; an answer that arrives in the phase in which it was asked for is told apart from one
that a reset has overtaken. Invariants go by cases on it and do not open the stretches. -/
namespace WalletSession

namespace Call

def isStartup : Call → Bool
  | .init | .observe => true
  | _ => false

/-- The call makes for the single flight at once. -/
def boards : Call → Bool
  | .check | .connect | .handshake | .handshakeOutcome => true
  | _ => false

end Call

namespace Await

/-- The phase in which a call waits here, if it has taken an edge of its own to get here. -/
def phase? : Await → Option Phase
  | .status _ => some .revalidating
  | .issue _ => some .pendingNonce
  | .signature _ | .publicKey _ => some .pendingSignature
  | .verify _ => some .pendingVerification
  | _ => none

/-- A call waits here on the flight that it holds. -/
def isAboard : Await → Bool
  | .connectedWallet | .walletPrompt | .account => true
  | a => a.phase?.isSome

/-- A call waits here on its flight, and has not taken an edge yet. -/
def isEarly (a : Await) : Bool := a.isAboard && a.phase?.isNone

def isOf (call : Call) : Await → Bool
  | .startupWallet => call.isStartup
  | .connectedWallet | .walletPrompt => call == .connect
  | .status _ => call.isStartup || call == .check || call == .connect
  | .account | .issue _ | .signature _ | .publicKey _ | .verify _ => call.isShareable
  | .walletLogout | .revoke => call == .disconnect
  | .balance _ => call == .balance
  | .network amount => call == .topUp amount
  | .deposit _ => call matches .topUp _

/-- Connecting may go on to a check from here, or a check is under way. -/
def isCheck : Await → Bool
  | .connectedWallet | .walletPrompt | .status _ => true
  | _ => false

/-- Since the call asked, the phase was left alone or reset. -/
def Fits (phase : Phase) : Await → Prop
  | .account => phase = .unauthenticated
  | a => ∀ own ∈ a.phase?, phase = own ∨ phase = .unauthenticated

theorem isAboard_of_phase {a : Await} {phase : Phase} (edge : a.phase? = some phase) :
    a.isAboard = true := by
  cases a <;> simp_all [isAboard, phase?]

theorem isAboard_of_edge {a : Await} (edge : a.phase?.isSome = true) : a.isAboard = true := by
  obtain ⟨_, edge⟩ := Option.isSome_iff_exists.mp edge
  exact isAboard_of_phase edge

/-- A call waits here in the middle of a handshake that it has started. -/
def shakes (a : Await) : Bool := a.phase?.isSome && a.isOf .handshake

theorem not_shakes_of_isCheck {a : Await} (checks : a.isCheck = true) : a.shakes = false := by
  cases a <;> first | rfl | contradiction

theorem shakes_of_issue {a : Await} {draft : SessionToken} (asks : a.request = .issue draft) :
    a.shakes = true := by
  cases a <;> first | rfl | cases asks

/-- No edge leads to the phase that a reset leaves. -/
theorem ne_unauthenticated {a : Await} {phase : Phase} (edge : a.phase? = some phase) :
    phase ≠ .unauthenticated := by
  cases a <;> cases edge <;> decide

theorem isAboard_of_isCheck {a : Await} (checks : a.isCheck = true) : a.isAboard = true := by
  cases a <;> first | rfl | contradiction

/-- A handshake takes its edges while the session is not connected. -/
theorem shakes_apart {a : Await} {phase : Phase} (edge : a.phase? = some phase)
    (shakes : a.isOf .handshake = true) : phase ≠ .verified ∧ phase ≠ .revalidating := by
  cases a <;> first | (cases edge <;> decide) | cases shakes

/-- Who makes for the flight at once asks nothing without it. -/
theorem isAboard_of_boards {call : Call} {a : Await} (suits : a.isOf call = true)
    (boards : call.boards = true) : a.isAboard = true := by
  cases a <;> first | rfl | (cases call <;> contradiction)

theorem Fits.reset (a : Await) : a.Fits .unauthenticated := by
  cases a <;> simp [Fits]

theorem Fits.inTime {a : Await} {phase : Phase} (edge : a.phase? = some phase) : a.Fits phase := by
  cases a <;> simp_all [Fits, phase?]

theorem Fits.ashore {a : Await} (outside : a.isAboard = false) (phase : Phase) :
    a.Fits phase := by
  cases a <;> simp_all [Fits, isAboard, phase?]

end Await

/-- A result that leaves the caller without a connection. -/
def Value.isNo : Value → Bool
  | .flag b => !b
  | .outcome o => !o.isVerified
  | _ => false

/-- When a call does a stretch of work. -/
inductive Occasion
  | start
  | flight
  | answer (a : Await) (reply : Except AuthError a.Reply)

namespace Occasion

variable {σ : Type} [TokenStore σ]

def work (call : Call) : Occasion → Act σ Move
  | .start => Session.begin call
  | .flight => return .stop (← Session.aboard call)
  | .answer a reply => Session.resume call a reply

def isAshore : Occasion → Bool
  | .start => true
  | .flight => false
  | .answer a _ => !a.isAboard

/-- The call may look at its record now, or has learnt what became of it. -/
def isCheck : Occasion → Bool
  | .start => false
  | .flight => true
  | .answer a _ => a.isCheck

/-- The call holds the flight, and since it took an edge the phase was left alone. -/
def InTime (phase : Phase) : Occasion → Prop
  | .start => False
  | .flight => True
  | .answer a _ => a.isAboard = true ∧ ∀ own ∈ a.phase?, phase = own

/-- What the stretch goes on from is what the call has waited for. -/
def Fits (call : Call) (phase : Phase) : Occasion → Prop
  | .start => True
  | .flight => call.isStartup ∨ call.boards
  | .answer a _ => a.isOf call ∧ a.Fits phase

inductive Checks (call : Call) : Occasion → Prop
  | alone (only : call.isShareable = false) : Checks call .flight
  | connected : Checks call (.answer .connectedWallet (.ok true))
  | prompted : Checks call (.answer .walletPrompt (.ok ()))

theorem aboard_of_isCheck {occasion : Occasion} (checked : occasion.isCheck = true) :
    occasion.isAshore = false := by
  cases occasion with
  | start => contradiction
  | flight => rfl
  | answer a reply => simp [isAshore, Await.isAboard_of_isCheck checked]

theorem InTime.aboard {occasion : Occasion} {phase : Phase} (inTime : occasion.InTime phase) :
    occasion.isAshore = false := by
  cases occasion with
  | start => contradiction
  | flight => rfl
  | answer a reply => simp [isAshore, inTime.1]

theorem InTime.answer {a : Await} {phase : Phase} (edge : a.phase? = some phase)
    (reply : Except AuthError a.Reply) : (Occasion.answer a reply).InTime phase :=
  ⟨Await.isAboard_of_phase edge, by simp [edge]⟩

theorem Checks.inTime {call : Call} {occasion : Occasion} (checks : Checks call occasion)
    (phase : Phase) : occasion.InTime phase := by
  cases checks with
  | alone => trivial
  | connected | prompted => exact ⟨rfl, nofun⟩

theorem Checks.isCheck {call : Call} {occasion : Occasion} (checks : Checks call occasion) :
    occasion.isCheck = true := by
  cases checks <;> rfl

theorem Checks.aboard {call : Call} {occasion : Occasion} (checks : Checks call occasion) :
    occasion.isAshore = false := aboard_of_isCheck checks.isCheck

theorem Checks.suits {call : Call} {occasion : Occasion} {phase : Phase}
    (checks : Checks call occasion) (fits : occasion.Fits call phase) (current : SessionToken) :
    (Await.status current).isOf call = true := by
  cases checks with
  | alone only =>
    cases call <;>
      simp_all [Fits, Await.isOf, Call.isStartup, Call.boards, Call.isShareable]
  | connected | prompted =>
    obtain ⟨suits, _⟩ := fits
    simp_all [Await.isOf]

end Occasion

namespace Occasion

/-- Startup ends here: there is no wallet, or it does not say that it is connected. -/
inductive Denies (hasWallet : Bool) : Occasion → Prop
  | absent (none : hasWallet = false) : Denies hasWallet .start
  | refused {reply : Except AuthError Bool} (no : reply ≠ .ok true) :
      Denies hasWallet (.answer .startupWallet reply)

theorem Denies.ashore {hasWallet : Bool} {occasion : Occasion} (denies : occasion.Denies hasWallet) :
    occasion.isAshore = true := by
  cases denies <;> rfl

end Occasion

namespace Session

/-- What a call asks for without the flight, and when. -/
inductive Asks {σ : Type} (call : Call) (s : Session σ) : Occasion → Await → Prop
  | startup (only : call.isStartup = true) (wallet : s.hasWallet = true) :
      Asks call s .start .startupWallet
  | balance {account : String} (only : call = .balance) (owner : s.state.token.account = some account)
      (wallet : s.hasWallet = true) (connected : s.state.connected = true) :
      Asks call s .start (.balance (.balanceOf s.chain.contractAddress account))
  | network {amount : Nat} (only : call = .topUp amount) (wallet : s.hasWallet = true)
      (connected : s.state.connected = true) : Asks call s .start (.network amount)
  | deposit {amount : Nat} {network : Network} (only : call = .topUp amount)
      (agreed : s.chain.isMatchedBy network = true) :
      Asks call s (.answer (.network amount) (.ok network))
        (.deposit (depositPayload s.chain amount))
  | revoke {reply : Except AuthError Unit} (only : call = .disconnect) :
      Asks call s (.answer .walletLogout reply) .revoke

section Asks

variable {σ : Type} {call : Call} {s : Session σ} {occasion : Occasion} {a : Await}

theorem Asks.ashore (asks : Asks call s occasion a) : occasion.isAshore = true := by
  cases asks <;> rfl

theorem Asks.outside (asks : Asks call s occasion a) : a.isAboard = false := by
  cases asks <;> rfl

theorem Asks.suits (asks : Asks call s occasion a) : a.isOf call = true := by
  cases asks with
  | startup only => exact only
  | balance only | network only | deposit only | revoke only => simp [Await.isOf, only]

end Asks

/-- What a call that never flies returns, and when. Startup is apart from these. -/
inductive Ends {σ : Type} (call : Call) (s : Session σ) : Occasion → Except AuthError Value → Prop
  | logout {reply : Except AuthError Bool} (only : call = .disconnect) :
      Ends call s (.answer .revoke reply) (.ok (.flag true))
  | hidden (only : call = .balance)
      (unfit : s.state.connected = true → s.hasWallet = true → s.state.token.account = none) :
      Ends call s .start (.ok (.balance (.zero false)))
  | shown {request : ViewRequest} {v : Json} (only : call = .balance) :
      Ends call s (.answer (.balance request) (.ok v)) (.ok (.balance (Balance.ofAnswer v)))
  | unseen {request : ViewRequest} {e : AuthError} (only : call = .balance) :
      Ends call s (.answer (.balance request) (.error e)) (.error e)
  | spared {amount : Nat} (only : call = .topUp amount)
      (unfit : (s.hasWallet && s.state.connected) = false) : Ends call s .start (.ok .done)
  | unlocated {amount : Nat} {e : AuthError} (only : call = .topUp amount) :
      Ends call s (.answer (.network amount) (.error e)) (.error e)
  | astray {amount : Nat} {network : Network} (only : call = .topUp amount)
      (elsewhere : s.chain.isMatchedBy network = false) :
      Ends call s (.answer (.network amount) (.ok network))
        (.error (.wrongNetwork s.chain.rpcUrl s.chain.chainId))
  | unsubmitted {amount : Nat} {payload : EntryFunctionPayload} {e : AuthError}
      (only : call = .topUp amount) : Ends call s (.answer (.deposit payload) (.error e)) (.error e)
  | declined {amount : Nat} {payload : EntryFunctionPayload} {response : SubmitResponse}
      (only : call = .topUp amount) (unsuccessful : response.success = false) :
      Ends call s (.answer (.deposit payload) (.ok response)) (.error .topUpFailed)
  | deposited {amount : Nat} {payload : EntryFunctionPayload} {response : SubmitResponse}
      (only : call = .topUp amount) (successful : response.success = true) :
      Ends call s (.answer (.deposit payload) (.ok response)) (.ok .done)

section Ends

variable {σ : Type} {call : Call} {s : Session σ} {occasion : Occasion}
  {result : Except AuthError Value}

theorem Ends.ashore (ends : Ends call s occasion result) : occasion.isAshore = true := by
  cases ends <;> rfl

theorem Ends.other (ends : Ends call s occasion result) :
    call.isStartup = false ∧ call.boards = false := by
  cases ends with
  | logout only | hidden only | shown only | unseen only | spared only | unlocated only
  | astray only | unsubmitted only | declined only | deposited only => exact only ▸ ⟨rfl, rfl⟩

end Ends

/-- The record that an answer has the session keep, and the phase in which it is kept. -/
inductive Keeps (held : SessionToken) :
    (a : Await) → Except AuthError a.Reply → SessionToken → Phase → Prop
  | challenge {draft issued : SessionToken} {nonce : String} (given : issued.nonce = some nonce) :
      Keeps held (.issue draft) (.ok issued) (draft.merge issued) .pendingSignature
  | renewed {current answer : SessionToken}
      (valid : (revalidated current answer).verified = true) :
      Keeps held (.status current) (.ok answer) (revalidated current answer) .verified
  | accepted {submission : SignatureSubmission} {answer : SessionToken}
      (valid : (held.merge answer).verified = true) :
      Keeps held (.verify submission) (.ok answer) (held.merge answer) .verified
  | rejected {submission : SignatureSubmission} {answer : SessionToken}
      (invalid : (held.merge answer).verified = false) :
      Keeps held (.verify submission) (.ok answer) (held.merge answer) .unauthenticated

variable {σ : Type} [TokenStore σ]

inductive Turn (call : Call) (s : Session σ) :
    Occasion → Except AuthError Move → Session σ → Prop
  -- Without the flight.
  | boards (flies : call.boards = true) : Turn call s .start (.ok .board) s
  | ready : Turn call s (.answer .startupWallet (.ok true)) (.ok .board) s
  | asks {occasion : Occasion} {a : Await} (asks : Asks call s occasion a) :
      Turn call s occasion (.ok (.stop (.wait a))) s
  | isUnready {occasion : Occasion} (startup : call.isStartup = true)
      (denies : occasion.Denies s.hasWallet) :
      Turn call s occasion (.ok (.stop (.finish (.flag false)))) s
  | returns {occasion : Occasion} {v : Value} (ends : Ends call s occasion (.ok v)) :
      Turn call s occasion (.ok (.stop (.finish v))) s
  | fails {occasion : Occasion} {e : AuthError} (ends : Ends call s occasion (.error e)) :
      Turn call s occasion (.error e) s
  | logsOut {a : Await} (only : call = .disconnect) (next : a = .walletLogout ∨ a = .revoke) :
      Turn call s .start (.ok (.stop (.wait a))) s.forgotten
  -- On the flight, before an edge is taken.
  | setsOut (only : call = .connect) (wallet : s.hasWallet = true) :
      Turn call s .flight (.ok (.stop (.wait .connectedWallet))) (s.withConnected false)
  | lacksWallet (only : call = .connect) (none : s.hasWallet = false) :
      Turn call s .flight (.ok (.stop (.finish (.flag false)))) (s.withConnected false)
  | prompts :
      Turn call s (.answer .connectedWallet (.ok false)) (.ok (.stop (.wait .walletPrompt))) s
  | isRefused {a : Await} {reply : Except AuthError a.Reply} {e : AuthError}
      (aboard : a.isAboard = true) (early : a.phase? = none) (told : reply = .error e) :
      Turn call s (.answer a reply) (.error e) s
  | cannotCheck {occasion : Occasion} (checks : occasion.Checks call)
      (present : s.state.token.isPresent = true)
      (phase : s.state.phase ≠ .unauthenticated ∧ s.state.phase ≠ .verified) :
      Turn call s occasion (.error (.invalidTransition s.state.phase .revalidate)) s
  | revalidates {occasion : Occasion} (checks : occasion.Checks call)
      (present : s.state.token.isPresent = true)
      (phase : s.state.phase = .unauthenticated ∨ s.state.phase = .verified) :
      Turn call s occasion (.ok (.stop (.wait (.status s.state.token)))) (s.inPhase .revalidating)
  | starts {account : String} (phase : s.state.phase = .unauthenticated) :
      Turn call s (.answer .account (.ok account))
        (.ok (.stop (.wait (.issue (.withAccount account))))) (s.inPhase .pendingNonce)
  -- The session is forgotten, and a handshake may begin.
  | forgetsFailing {occasion : Occasion} {e : AuthError}
      (inTime : occasion.InTime s.state.phase) (kept : (TokenStore.clear s.store).1 = .error e) :
      Turn call s occasion (.error e) s.forgotten
  | forgets {occasion : Occasion} {v : Value} (inTime : occasion.InTime s.state.phase)
      (no : v.isNo = true) (told : ∃ o, v = call.handshakeValue o) :
      Turn call s occasion (.ok (.stop (.finish v))) s.forgotten
  | startsOver (shakes : call.isShareable = true) (wallet : s.hasWallet = true)
      (cleared : (TokenStore.clear s.store).1 = .ok ()) :
      Turn call s .flight (.ok (.stop (.wait .account))) s.forgotten
  | fallsBackFailing {occasion : Occasion} {e : AuthError} (only : call = .connect)
      (inTime : occasion.InTime s.state.phase)
      (kept : (TokenStore.clear s.forgotten.store).1 = .error e) :
      Turn call s occasion (.error e) s.forgotten.forgotten
  | fallsBackVainly {occasion : Occasion} {v : Value} (only : call = .connect)
      (inTime : occasion.InTime s.state.phase) (no : v.isNo = true)
      (told : ∃ o, v = call.handshakeValue o) :
      Turn call s occasion (.ok (.stop (.finish v))) s.forgotten.forgotten
  | fallsBack {occasion : Occasion} (only : call = .connect) (checked : occasion.isCheck = true)
      (inTime : occasion.InTime s.state.phase) (wallet : s.hasWallet = true)
      (cleared : (TokenStore.clear s.forgotten.store).1 = .ok ()) :
      Turn call s occasion (.ok (.stop (.wait .account))) s.forgotten.forgotten
  -- An answer that a reset has overtaken.
  | overtaken {a : Await} {reply : Except AuthError a.Reply} {e : AuthError}
      (edge : a.phase?.isSome = true) (phase : s.state.phase = .unauthenticated) :
      Turn call s (.answer a reply) (.error e) s
  -- An answer in time, or a signature that was overtaken and is not yet known to be.
  | signs {payload : SignMessagePayload} {signed : SignedMessage} :
      Turn call s (.answer (.signature payload) (.ok { success := true, result := some signed }))
        (.ok (.stop (.wait (.publicKey signed)))) s
  | submits {signed : SignedMessage} {publicKey : String}
      (phase : s.state.phase = .pendingSignature) :
      Turn call s (.answer (.publicKey signed) (.ok publicKey))
        (.ok (.stop (.wait (.verify { signed, publicKey })))) (s.inPhase .pendingVerification)
  | givesUp {a : Await} {reply : Except AuthError a.Reply} {e : AuthError}
      (phase : a.phase? = some s.state.phase) (shakes : a.isOf .handshake = true)
      (told : reply = .error e ∨ e = .missingNonce) :
      Turn call s (.answer a reply) (.error e) (s.inPhase .unauthenticated)
  | isUnanswered {current : SessionToken} {e : AuthError}
      (phase : s.state.phase = .revalidating) :
      Turn call s (.answer (.status current) (.error e)) (.error e)
        ((s.inPhase .unauthenticated).withConnected false)
  | keepsChallenge {draft issued : SessionToken} {nonce : String}
      (phase : s.state.phase = .pendingNonce) (given : issued.nonce = some nonce)
      (saved : (TokenStore.save s.store (draft.merge issued)).1 = .ok ()) :
      Turn call s (.answer (.issue draft) (.ok issued))
        (.ok (.stop (.wait (.signature (.challenge (Wire.encode issued) nonce)))))
        (((s.inPhase .pendingSignature).wrote (draft.merge issued)).withToken (draft.merge issued))
  | confirms {a : Await} {reply : Except AuthError a.Reply} {token : SessionToken}
      (phase : a.phase? = some s.state.phase) (keeps : Keeps s.state.token a reply token .verified)
      (saved : (TokenStore.save s.store token).1 = .ok ()) :
      Turn call s (.answer a reply) (.ok (.stop (.finish (call.handshakeValue .verified))))
        (s.confirmed token)
  | isRejected {submission : SignatureSubmission} {reply : Except AuthError SessionToken}
      {token : SessionToken} (phase : s.state.phase = .pendingVerification)
      (keeps : Keeps s.state.token (.verify submission) reply token .unauthenticated)
      (saved : (TokenStore.save s.store token).1 = .ok ()) :
      Turn call s (.answer (.verify submission) reply) (.error .verificationFailed)
        (((s.inPhase .unauthenticated).wrote token).withToken token)
  | cannotKeep {a : Await} {reply : Except AuthError a.Reply} {token : SessionToken}
      {next : Phase} {e : AuthError} (phase : a.phase? = some s.state.phase)
      (keeps : Keeps s.state.token a reply token next)
      (unsaved : (TokenStore.save s.store token).1 = .error e) :
      Turn call s (.answer a reply) (.error e)
        ((s.inPhase (if next = .verified then .verified else .unauthenticated)).wrote token)

theorem Turn.board {s s' : Session σ} {call : Call} {occasion : Occasion}
    (turn : Turn call s occasion (.ok .board) s') : s' = s := by
  cases turn <;> rfl

theorem Turn.board_ashore {s s' : Session σ} {call : Call} {occasion : Occasion}
    (turn : Turn call s occasion (.ok .board) s') : occasion.isAshore = true := by
  cases turn <;> rfl

section Facts

variable {s s' : Session σ} {call : Call} {occasion : Occasion} {result : Except AuthError Move}

theorem Turn.hasWallet (turn : Turn call s occasion result s') : s'.hasWallet = s.hasWallet := by
  cases turn <;> rfl

theorem Turn.chain (turn : Turn call s occasion result s') : s'.chain = s.chain := by
  cases turn <;> rfl

/-- Without the flight a call can only reset the phase. -/
theorem Turn.phase (turn : Turn call s occasion result s') :
    s'.state.phase = s.state.phase ∨ s'.state.phase = .unauthenticated ∨
      occasion.isAshore = false := by
  cases turn with
  | boards | ready | asks | isUnready | returns | fails | setsOut | lacksWallet | prompts | isRefused
  | cannotCheck | overtaken | signs => exact .inl rfl
  | logsOut | forgetsFailing | forgets | startsOver | fallsBackFailing | fallsBackVainly | fallsBack
  | givesUp | isUnanswered | isRejected => exact .inr (.inl rfl)
  | revalidates checks => exact .inr (.inr checks.aboard)
  | starts | submits | keepsChallenge => exact .inr (.inr rfl)
  | confirms edge | cannotKeep edge =>
    exact .inr (.inr (by simp [Occasion.isAshore, Await.isAboard_of_phase edge]))

/-- All that a stretch without the flight can come to, if it does not lead to the flight. -/
theorem Turn.stops_ashore (turn : Turn call s occasion result s')
    (ashore : occasion.isAshore = true) (stops : result ≠ .ok .board) :
    (call = .disconnect ∧ occasion = .start ∧ s' = s.forgotten) ∨
      s' = s ∧
        ((∃ a, result = .ok (.stop (.wait a)) ∧ Asks call s occasion a) ∨
          (call.isStartup = true ∧ occasion.Denies s.hasWallet ∧
            result = .ok (.stop (.finish (.flag false)))) ∨
          ∃ value, result = value.map (fun v => .stop (.finish v)) ∧
            Ends call s occasion value) := by
  cases turn with
  | boards | ready => exact absurd rfl stops
  | asks asks => exact .inr ⟨rfl, .inl ⟨_, rfl, asks⟩⟩
  | isUnready startup denies => exact .inr ⟨rfl, .inr (.inl ⟨startup, denies, rfl⟩)⟩
  | returns ends | fails ends => exact .inr ⟨rfl, .inr (.inr ⟨_, rfl, ends⟩)⟩
  | logsOut only => exact .inl ⟨only, rfl, rfl⟩
  | isRefused aboard => simp [Occasion.isAshore, aboard] at ashore
  | cannotCheck checks | revalidates checks => simp [checks.aboard] at ashore
  | forgetsFailing inTime | forgets inTime | fallsBackFailing _ inTime | fallsBackVainly _ inTime
  | fallsBack _ _ inTime => simp [inTime.aboard] at ashore
  | overtaken edge => simp [Occasion.isAshore, Await.isAboard_of_edge edge] at ashore
  | givesUp edge | confirms edge | cannotKeep edge =>
    simp [Occasion.isAshore, Await.isAboard_of_phase edge] at ashore
  | _ => contradiction

/-- Without the flight a call leaves the session alone, or disconnects it. -/
theorem Turn.ashore (turn : Turn call s occasion result s') (ashore : occasion.isAshore = true) :
    s' = s ∨ call = .disconnect ∧ s' = s.forgotten := by
  by_cases leads : result = .ok .board
  · subst leads
    exact .inl turn.board
  · rcases turn.stops_ashore ashore leads with ⟨only, _, same⟩ | ⟨same, _⟩
    · exact .inr ⟨only, same⟩
    · exact .inl same

theorem Turn.aboard {a : Await} (turn : Turn call s occasion (.ok (.stop (.wait a))) s') :
    a.isAboard = !occasion.isAshore := by
  cases turn with
  | asks asks => simp [asks.ashore, asks.outside]
  | logsOut _ next => rcases next with rfl | rfl <;> rfl
  | setsOut | prompts | starts | startsOver | signs | submits | keepsChallenge => rfl
  | revalidates checks => simp [checks.aboard, Await.isAboard, Await.phase?]
  | fallsBack _ checked => simp [Occasion.aboard_of_isCheck checked, Await.isAboard]

theorem Turn.waits {a : Await} (turn : Turn call s occasion (.ok (.stop (.wait a))) s')
    (fits : occasion.Fits call s.state.phase) : a.isOf call = true ∧ a.Fits s'.state.phase := by
  cases turn with
  | asks asks => exact ⟨asks.suits, .ashore asks.outside _⟩
  | logsOut only next =>
    rcases next with rfl | rfl <;> exact ⟨by simp [Await.isOf, only], .ashore rfl _⟩
  | setsOut only => exact ⟨by simp [Await.isOf, only], nofun⟩
  | prompts => exact ⟨fits.1, nofun⟩
  | revalidates checks => exact ⟨checks.suits fits _, .inTime rfl⟩
  | starts => exact ⟨fits.1, .inTime rfl⟩
  | startsOver shakes => exact ⟨shakes, rfl⟩
  | fallsBack only => exact ⟨by simp [Await.isOf, only, Call.isShareable], rfl⟩
  | signs => exact fits
  | submits | keepsChallenge => exact ⟨fits.1, .inTime rfl⟩

theorem Turn.early {a : Await} (turn : Turn call s occasion (.ok (.stop (.wait a))) s')
    (early : a.isEarly = true)
    (before : ∀ reply, occasion = .answer .connectedWallet reply → s.hasWallet = true) :
    s'.hasWallet = true := by
  rw [turn.hasWallet]
  cases turn with
  | asks asks => simp [Await.isEarly, asks.outside] at early
  | logsOut _ next => rcases next with rfl | rfl <;> cases early
  | setsOut _ wallet | startsOver _ wallet | fallsBack _ _ _ wallet => exact wallet
  | prompts => exact before _ rfl
  | revalidates | starts | signs | submits | keepsChallenge => cases early

/-- What a reset has overtaken fails and leaves the session as it is, but for a signature, which goes
on to ask for a public key first. -/
theorem Turn.late {a : Await} {reply : Except AuthError a.Reply}
    (turn : Turn call s (.answer a reply) result s') (reset : s.state.phase = .unauthenticated)
    (edge : a.phase?.isSome = true) :
    s' = s ∧ ((∃ e, result = .error e) ∨
      ∃ signed, result = .ok (.stop (.wait (.publicKey signed)))) := by
  obtain ⟨own, edge⟩ := Option.isSome_iff_exists.mp edge
  have aboard := Await.isAboard_of_phase edge
  have late : a.phase? ≠ some s.state.phase :=
    fun phase => Await.ne_unauthenticated phase reset
  have overdue : ¬(Occasion.answer a reply).InTime s.state.phase :=
    fun inTime => late (inTime.2 own edge ▸ edge)
  cases turn with
  | overtaken => exact ⟨rfl, .inl ⟨_, rfl⟩⟩
  | signs => exact ⟨rfl, .inr ⟨_, rfl⟩⟩
  | asks asks => simpa [Occasion.isAshore, aboard] using asks.ashore
  | isUnready _ denies => simpa [Occasion.isAshore, aboard] using denies.ashore
  | returns ends | fails ends => exact absurd ends.ashore (by simp [Occasion.isAshore, aboard])
  | ready | prompts | starts => cases edge
  | isRefused _ early => simp [early] at edge
  | cannotCheck checks | revalidates checks => cases checks <;> cases edge
  | forgetsFailing inTime | forgets inTime | fallsBackFailing _ inTime | fallsBackVainly _ inTime
  | fallsBack _ _ inTime => exact absurd inTime overdue
  | submits phase | isUnanswered phase | keepsChallenge phase | isRejected phase =>
    simp [reset] at phase
  | givesUp phase | confirms phase | cannotKeep phase => exact absurd phase late

theorem Turn.shakes {a next : Await} {reply : Except AuthError a.Reply}
    (turn : Turn call s (.answer a reply) (.ok (.stop (.wait next))) s')
    (shakes : a.shakes = true) : next.shakes = true := by
  have aboard := Await.isAboard_of_edge (Bool.and_eq_true_iff.mp shakes).1
  cases turn with
  | asks asks => simpa [Occasion.isAshore, aboard] using asks.ashore
  | prompts | starts => cases shakes
  | revalidates checks => cases checks <;> cases shakes
  | fallsBack _ checked => simp [Await.not_shakes_of_isCheck checked] at shakes
  | signs | submits | keepsChallenge => rfl

/-- A pending phase is that of the question that the call goes on to, or it was there before and the
call did not come from the question of it. -/
theorem Turn.pending (turn : Turn call s occasion result s')
    (pending : s'.state.phase.isPending = true) :
    (∃ a, result = .ok (.stop (.wait a)) ∧ a.phase? = some s'.state.phase) ∨
      s'.state.phase = s.state.phase ∧
        ∀ a reply, occasion = .answer a reply → a.phase? ≠ some s.state.phase := by
  have elsewhere (ashore : occasion.isAshore = true) :
      ∀ a reply, occasion = .answer a reply → a.phase? ≠ some s.state.phase := by
    rintro a reply rfl edge
    simp [Occasion.isAshore, Await.isAboard_of_phase edge] at ashore
  cases turn with
  | boards | ready => exact .inr ⟨rfl, elsewhere rfl⟩
  | asks asks => exact .inr ⟨rfl, elsewhere asks.ashore⟩
  | isUnready _ denies => exact .inr ⟨rfl, elsewhere denies.ashore⟩
  | returns ends | fails ends => exact .inr ⟨rfl, elsewhere ends.ashore⟩
  | setsOut | lacksWallet =>
    refine .inr ⟨rfl, ?_⟩
    rintro _ _ ⟨⟩
  | prompts =>
    refine .inr ⟨rfl, ?_⟩
    rintro _ _ ⟨⟩ edge
    cases edge
  | isRefused _ early =>
    refine .inr ⟨rfl, ?_⟩
    rintro _ _ ⟨⟩
    simp [early]
  | cannotCheck checks =>
    refine .inr ⟨rfl, ?_⟩
    rintro _ _ rfl edge
    cases checks <;> cases edge
  | signs =>
    by_cases own : s.state.phase = .pendingSignature
    · exact .inl ⟨_, rfl, congrArg some own.symm⟩
    · refine .inr ⟨rfl, ?_⟩
      rintro _ _ ⟨⟩ edge
      exact own (Option.some.inj edge).symm
  | revalidates | starts | submits | keepsChallenge => exact .inl ⟨_, rfl, rfl⟩
  | overtaken edge reset => simp [reset, Phase.isPending] at pending
  | logsOut | forgetsFailing | forgets | startsOver | fallsBackFailing | fallsBackVainly | fallsBack
  | givesUp | isUnanswered | isRejected | confirms => contradiction
  | cannotKeep =>
    simp only [wrote_state, inPhase_state_phase] at pending
    split at pending <;> contradiction

end Facts

end Session

end WalletSession
