import WalletSession.Proofs.Session.Turn

/-! What becomes of the errors of others. Work that asks the store ends with the error that the store
answers with: this is kept by every way of putting work together that calls use, up to one, the
recovery of a disconnect. An error that answers a question ends the stretch that it begins, and only a
check may replace it. -/
namespace WalletSession

variable {σ α β : Type} [TokenStore σ]

namespace Deed

def succeeded : Deed → Bool
  | .saved _ succeeded | .cleared succeeded => succeeded

/-- Has the store do it once more. -/
def redo (store : σ) : Deed → Except AuthError Unit × σ
  | .saved token _ => TokenStore.save store token
  | .cleared _ => TokenStore.clear store

end Deed

/-- What the store answers as it does one after the other. -/
def replies (store : σ) : List Deed → List (Except AuthError Unit)
  | [] => []
  | deed :: deeds => (deed.redo store).1 :: replies (deed.redo store).2 deeds

/-- The store that is left when it has done one after the other. -/
def redone (store : σ) : List Deed → σ
  | [] => store
  | deed :: deeds => redone (deed.redo store).2 deeds

theorem redone_append (store : σ) (first second : List Deed) :
    redone store (first ++ second) = redone (redone store first) second := by
  induction first generalizing store with
  | nil => rfl
  | cons deed deeds ih => exact ih (deed.redo store).2

theorem replies_append (store : σ) (first second : List Deed) :
    replies store (first ++ second) =
      replies store first ++ replies (redone store first) second := by
  induction first generalizing store with
  | nil => rfl
  | cons deed deeds ih => exact congrArg _ (ih (deed.redo store).2)

namespace Session

/-- The work notes what it asks the store for and whether the store did it, and ends with the error
that the store answers with. -/
def Reports (work : Act σ α) : Prop :=
  ∀ s : Session σ, ∃ deeds, (s.perform work).2.deeds = s.deeds ++ deeds ∧
    (s.perform work).2.store = redone s.store deeds ∧
    deeds.map (·.succeeded) = (replies s.store deeds).map (·.isOk) ∧
    ∀ e, .error e ∈ replies s.store deeds → (s.perform work).1 = .error e

namespace Reports

/-- Work that does not ask the store. -/
theorem ofQuiet {work : Act σ α} (quiet : ∀ s : Session σ,
    (s.perform work).2.deeds = s.deeds ∧ (s.perform work).2.store = s.store) : Reports work :=
  fun s => ⟨[], by simp [quiet], (quiet s).2, rfl, nofun⟩

protected theorem pure (a : α) : Reports (pure a : Act σ α) := ofQuiet fun _ => ⟨rfl, rfl⟩

protected theorem throw (e : AuthError) : Reports (throw e : Act σ α) := ofQuiet fun _ => ⟨rfl, rfl⟩

protected theorem get : Reports (get : Act σ (Session σ)) := ofQuiet fun _ => ⟨rfl, rfl⟩

protected theorem receive (answer : Except AuthError α) : Reports (receive answer : Act σ α) :=
  ofQuiet fun s => by simp

protected theorem setConnected (connected : Bool) : Reports (setConnected connected : Act σ Unit) :=
  ofQuiet fun _ => ⟨rfl, rfl⟩

protected theorem setToken (token : SessionToken) : Reports (setToken token : Act σ Unit) :=
  ofQuiet fun _ => ⟨rfl, rfl⟩

protected theorem advance (event : Event) : Reports (advance event : Act σ Effect) :=
  ofQuiet fun s => by
    rw [perform_advance]
    split <;> exact ⟨rfl, rfl⟩

protected theorem bind {work : Act σ α} {next : α → Act σ β} (first : Reports work)
    (second : ∀ a, Reports (next a)) : Reports (work >>= next) := by
  intro s
  obtain ⟨deeds, noted, left, flagged, told⟩ := first s
  rw [perform_bind]
  rcases performed : s.perform work with ⟨_ | a, s'⟩ <;> rw [performed] at noted left told
  · refine ⟨deeds, noted, left, flagged, fun e failed => ?_⟩
    exact congrArg _ (Except.error.inj (told e failed))
  · obtain ⟨more, noted', left', flagged', told'⟩ := second a s'
    refine ⟨deeds ++ more, ?_, ?_, ?_, fun e failed => ?_⟩
    · rw [noted', noted, List.append_assoc]
    · rw [left', left, redone_append]
    · rw [replies_append, List.map_append, List.map_append, flagged, ← left, flagged']
    · rw [replies_append, ← left] at failed
      rcases List.mem_append.mp failed with earlier | later
      · cases told e earlier
      · exact told' e later

protected theorem ite {c : Prop} [Decidable c] {yes no : Act σ α} (first : Reports yes)
    (second : Reports no) : Reports (if c then yes else no) := by
  split
  · exact first
  · exact second

/-- The recovery of a handshake keeps the error. -/
protected theorem orFail {work : Act σ α} (reports : Reports work) : Reports (orFail work) := by
  intro s
  obtain ⟨deeds, noted, left, flagged, told⟩ := reports s
  have deeds_failed (s : Session σ) : s.failed.deeds = s.deeds := by unfold failed; split <;> rfl
  have store_failed (s : Session σ) : s.failed.store = s.store := by unfold failed; split <;> rfl
  rw [perform_orFail]
  rcases performed : s.perform work with ⟨_ | a, s'⟩ <;> rw [performed] at noted left told
  · exact ⟨deeds, by rw [deeds_failed, noted], by rw [store_failed, left], flagged, told⟩
  · exact ⟨deeds, noted, left, flagged, told⟩

protected theorem saveRecord (token : SessionToken) : Reports (saveRecord token : Act σ Unit) := by
  intro s
  refine ⟨[.saved token (TokenStore.save s.store token).1.isOk], ?_, ?_, rfl, fun e failed => ?_⟩
  · simp [saveRecord]
  · simp [saveRecord, redone, Deed.redo]
  · simpa [saveRecord, replies, Deed.redo, eq_comm] using failed

protected theorem clearRecord : Reports (clearRecord : Act σ Unit) := by
  intro s
  refine ⟨[.cleared (TokenStore.clear s.store).1.isOk], ?_, ?_, rfl, fun e failed => ?_⟩
  · simp [clearRecord]
  · simp [clearRecord, redone, Deed.redo]
  · simpa [clearRecord, replies, Deed.redo, eq_comm] using failed

protected theorem follow (event : Event) (work : Effect) (fits : event.effect = work) :
    Reports (follow event work fits : Act σ Unit) :=
  (Reports.advance event).bind fun _ => .pure ()

protected theorem apply (effect : Effect) : Reports (apply effect : Act σ Unit) := by
  cases effect with
  | clearSession =>
    exact (Reports.setToken {}).bind fun _ => (Reports.setConnected false).bind fun _ => .clearRecord
  | _ => exact .pure ()

protected theorem reset : Reports (reset : Act σ Unit) :=
  (Reports.advance .reset).bind fun effect => .apply effect

protected theorem commit (token : SessionToken) : Reports (commit token : Act σ Unit) :=
  (Reports.saveRecord token).bind fun _ => .setToken token

section Calls

variable (call : Call)

theorem startHandshake : Reports (startHandshake call : Act σ Stop) := by
  refine Reports.bind ?begin fun a => ?_
  case begin =>
    exact .bind .reset fun _ => .bind .get fun _ => .pure _
  cases a with
  | some a => exact .pure _
  | none => exact .bind (.setConnected _) fun _ => .pure _

theorem afterCheck (valid : Bool) : Reports (afterCheck call valid : Act σ Stop) := by
  cases call with
  | connect =>
    cases valid with
    | true => exact .bind (.setConnected true) fun _ => .pure _
    | false => exact startHandshake .connect
  | _ => exact .pure _

theorem startCheck : Reports (startCheck call : Act σ Stop) := by
  refine Reports.bind ?begin fun a => ?_
  case begin =>
    refine .bind .get fun s => .ite ?_ ?_
    · exact .bind (.follow _ _ _) fun _ => .pure _
    · exact .bind .reset fun _ => .pure _
  cases a with
  | some a => exact .pure _
  | none => exact afterCheck call false

theorem endCheck (current : SessionToken) (answer : Except AuthError SessionToken) :
    Reports (endCheck current answer : Act σ Bool) := by
  cases answer with
  | error e => exact .bind (.follow _ _ _) fun _ => .bind (.setConnected false) fun _ => .throw e
  | ok refreshed =>
    refine Reports.ite ?_ ?_
    · exact .bind (.follow _ _ _) fun _ => .bind (.commit _) fun _ =>
        .bind (.setConnected true) fun _ => .pure true
    · exact .bind (.advance _) fun effect => .bind (.apply effect) fun _ => .pure false

theorem onIssued (draft : SessionToken) (answer : Except AuthError SessionToken) :
    Reports (onIssued draft answer : Act σ Await) := by
  refine .orFail (.bind (.receive answer) fun issued => ?_)
  cases issued.nonce with
  | none => exact .throw _
  | some nonce => exact .bind (.follow _ _ _) fun _ => .bind (.commit _) fun _ => .pure _

theorem onSigned (answer : Except AuthError SignMessageResponse) :
    Reports (onSigned answer : Act σ (Option Await)) := by
  refine .orFail (.bind (.receive answer) fun response => ?_)
  split
  · exact .pure _
  · exact .bind (.advance _) fun effect => .bind (.apply effect) fun _ => .pure _

theorem onVerified (answer : Except AuthError SessionToken) :
    Reports (onVerified answer : Act σ Unit) := by
  refine .orFail (.bind (.receive answer) fun verified => .bind .get fun s => .ite ?_ ?_)
  · exact .bind (.follow _ _ _) fun _ => .commit _
  · exact .bind (.follow _ _ _) fun _ => .bind (.commit _) fun _ => .throw _

theorem endHandshake (o : HandshakeOutcome) : Reports (endHandshake call o : Act σ Stop) :=
  .bind (.setConnected _) fun _ => .pure _

/-- A call reports what the store does not do, however it goes on. -/
theorem resume (a : Await) (reply : Except AuthError a.Reply) :
    Reports (resume call a reply : Act σ Move) := by
  cases a with
  | startupWallet | walletLogout | revoke => exact .pure _
  | connectedWallet =>
    refine .bind (.bind (.receive reply) fun connected => ?_) fun _ => .pure _
    cases connected with
    | true => exact startCheck call
    | false => exact .pure _
  | walletPrompt => exact .bind (.bind (.receive reply) fun _ => startCheck call) fun _ => .pure _
  | status current =>
    exact .bind (endCheck current reply) fun valid => .bind (afterCheck call valid) fun _ => .pure _
  | account =>
    exact .bind (.bind (.receive reply) fun _ => .bind (.follow _ _ _) fun _ => .pure _)
      fun _ => .pure _
  | issue draft => exact .bind (onIssued draft reply) fun _ => .pure _
  | signature payload =>
    refine .bind (onSigned reply) fun a => ?_
    cases a with
    | some a => exact .pure _
    | none => exact .bind (endHandshake call _) fun _ => .pure _
  | publicKey signed =>
    refine .bind (.orFail ?_) fun _ => .pure _
    exact .bind (.receive reply) fun _ => .bind (.follow _ _ _) fun _ => .pure _
  | verify submission =>
    exact .bind (onVerified reply) fun _ => .bind (endHandshake call _) fun _ => .pure _
  | balance request => exact .bind (.receive reply) fun _ => .pure _
  | network amount =>
    refine .bind (.bind (.receive reply) fun network => .bind .get fun s =>
      .ite (.pure _) (.throw _)) fun _ => .pure _
  | deposit payload =>
    exact .bind (.bind (.receive reply) fun response => .ite (.pure _) (.throw _)) fun _ => .pure _

theorem aboard : Reports (aboard call : Act σ Stop) := by
  cases call with
  | connect => exact .bind (.setConnected false) fun _ => .bind .get fun _ => .pure _
  | handshake | handshakeOutcome => exact startHandshake _
  | _ => exact startCheck _

/-- A disconnect does not report what the store does not do, and it has nothing to do with the
flight. -/
theorem work (boards : call.boards = true) (occasion : Occasion) :
    Reports (occasion.work call : Act σ Move) := by
  cases occasion with
  | start => cases call <;> first | exact .pure _ | contradiction
  | flight => exact .bind (aboard call) fun _ => .pure _
  | answer a reply => exact resume call a reply

end Calls

end Reports

omit [TokenStore σ] in
theorem fails_bind {s : Session σ} {work : Act σ α} {next : α → Act σ β} {e : AuthError}
    (fails : (s.perform work).1 = .error e) : (s.perform (work >>= next)).1 = .error e := by
  rw [perform_bind]
  rcases performed : s.perform work with ⟨_ | a, s'⟩ <;> rw [performed] at fails
  · exact congrArg _ (Except.error.inj fails)
  · cases fails

omit [TokenStore σ] in
theorem fails_orFail {s : Session σ} {work : Act σ α} {e : AuthError}
    (fails : (s.perform work).1 = .error e) : (s.perform (orFail work)).1 = .error e := by
  rw [perform_orFail]
  rcases performed : s.perform work with ⟨_ | a, s'⟩ <;> rw [performed] at fails <;> exact fails

/-- What a call that flies makes of an error that it is answered with: a check first gives up its
phase, and fails with its own error if there is nothing to give up. -/
def passedOn (phase : Phase) (a : Await) (e : AuthError) : AuthError :=
  match a with
  | .status _ => if phase.isPending then e else .invalidTransition phase .failed
  | _ => e

theorem perform_resume_error (s : Session σ) {call : Call} {a : Await} (e : AuthError)
    (suits : a.isOf call = true) (boards : call.boards = true) :
    (s.perform (resume call a (.error e))).1 = .error (passedOn s.state.phase a e) := by
  cases a with
  | startupWallet | walletLogout | revoke | balance | network | deposit =>
    cases call <;> contradiction
  | connectedWallet | walletPrompt | account => rfl
  | status current =>
    cases pending : s.state.phase.isPending <;>
      simp [resume, Session.endCheck, perform_giveUp, pending, passedOn]
  | issue | signature | publicKey | verify => exact fails_bind (fails_orFail (fails_bind rfl))

end Session

end WalletSession
