import WalletSession.Proofs.World.Answered
import WalletSession.Proofs.World.Connected

/-! The phase is one step ahead of the record. A check and a handshake take the edge to `verified`
before they have the confirmed record kept, and where the store refuses it the phase stays, over the
record of before. Nothing else makes the phase claim what the record does not. -/
namespace WalletSession

variable {σ : Type} [TokenStore σ]

/-- An answer confirmed a record and the store did not take it, and it was asked for nothing since. -/
def Refused (log : List Note) : Prop :=
  ∃ (before : List Note) (id : Nat) (answer : Note) (token : SessionToken) (after : List Note),
    log = before ++ answer :: .did id (.saved token false) :: after ∧ Confirms id answer token ∧
      ∀ other deed, .did other deed ∉ after

theorem Refused.append {log notes : List Note} (refused : Refused log)
    (undone : ∀ id deed, .did id deed ∉ notes) : Refused (log ++ notes) := by
  obtain ⟨before, id, answer, token, after, rfl, confirms, quiet⟩ := refused
  refine ⟨before, id, answer, token, after ++ notes, by simp, confirms, ?_⟩
  intro other deed member
  rcases List.mem_append.mp member with earlier | later
  · exact quiet other deed earlier
  · exact undone other deed later

namespace Session

variable {s s' : Session σ} {call : Call} {occasion : Occasion} {result : Except AuthError Move}

/-- The phase gets to claim a verified record together with it, or with one that was refused. -/
theorem Turn.verified (turn : Turn call s occasion result s') (rested : s.deeds = [])
    (now : s'.state.phase = .verified) :
    (s.state.phase = .verified ∧ s'.state.token = s.state.token ∧ s'.deeds = []) ∨
      s'.state.token.verified = true ∨
      ∃ a reply token, occasion = .answer a reply ∧ s'.deeds = [.saved token false] ∧
        Keeps s.state.token a reply token .verified := by
  cases turn with
  | boards | ready | asks | isUnready | returns | fails | setsOut | lacksWallet | prompts
  | isRefused | cannotCheck | overtaken | signs => exact .inl ⟨now, rfl, rested⟩
  | logsOut | forgetsFailing | forgets | startsOver | fallsBackFailing | fallsBackVainly | fallsBack
  | revalidates | starts | submits | keepsChallenge | givesUp | isUnanswered | isRejected =>
    contradiction
  | confirms edge keeps => exact .inr (.inl (verified_of_kept keeps))
  | @cannotKeep _ _ token next e edge keeps unsaved =>
    simp only [wrote_state, inPhase_state_phase] at now
    split at now
    next reached =>
      subst reached
      refine .inr (.inr ⟨_, _, token, rfl, ?_, keeps⟩)
      simp [rested, unsaved, Except.isOk, Except.toBool]
    next => contradiction

/-- Where the store refuses a confirmed record, the phase has gone ahead. -/
theorem perform_resume_refused {a : Await} {reply : Except AuthError a.Reply}
    {token : SessionToken} {e : AuthError} (inTime : a.phase? = some s.state.phase)
    (keeps : Keeps s.state.token a reply token .verified)
    (refused : (TokenStore.save s.store token).1 = .error e) :
    s.perform (resume call a reply) = (.error e, (s.inPhase .verified).wrote token) := by
  cases keeps with
  | @renewed current answer valid =>
    have asked : s.state.phase = .revalidating := (Option.some.inj inTime).symm
    refine (congrArg s.perform (resume_status call current (.ok answer))).trans ?_
    rw [perform_stop, perform_endCheck_valid s call current answer asked valid, refused]
    rfl
  | @accepted submission answer valid =>
    have asked : s.state.phase = .pendingVerification := (Option.some.inj inTime).symm
    refine (congrArg s.perform (resume_verify call submission (.ok answer))).trans ?_
    rw [perform_stop, perform_onVerified s call answer asked valid, refused]
    rfl

end Session

namespace World

variable {w w' : World σ} {t : Task} {occasion : Occasion} {lock : Lock} {notes : List Note}

/-- What the phase claims holds of the record, or of one that the store did not take. -/
def Justified (w : World σ) : Prop :=
  w.session.state.phase = .verified →
    w.session.state.token.verified = true ∨ Refused w.log

theorem Justified.turns {result : Except AuthError Move} {s : Session σ} (justified : w.Justified)
    (orderly : w.Orderly) (comes : Comes w t occasion lock notes)
    (turn : Session.Turn t.call w.session occasion result s)
    (moved : Moved w t lock (rest result) (settled s.rested t.call result)
      (notes ++ s.deeds.map (.did t.id) ++ closing t lock s.rested result) w') :
    w'.Justified := by
  intro now
  rw [moved.session, settled_phase, Session.rested_state] at now
  rw [moved.session, settled_token, Session.rested_state, moved.log]
  rcases turn.verified orderly.rested now with
    ⟨before, same, undone⟩ | verified | ⟨a, reply, token, rfl, unkept, keeps⟩
  · rw [same]
    refine (justified before).imp_right fun refused => refused.append fun id deed member => ?_
    simp only [undone, List.map_nil, List.append_nil, List.mem_append] at member
    rcases member with noted | closed
    · exact comes.undone id deed noted
    · exact closing_undone _ _ id deed closed
  · exact .inl verified
  · cases comes with
    | answered has place _ =>
      refine .inr ⟨w.log, t.id, _, token, closing t w.flight.lock s.rested result, by simp [unkept],
        Session.confirms_of_keeps keeps t.id, ?_⟩
      intro other deed
      exact closing_undone _ _ other deed

theorem Moves.justified {id : Nat} (moves : Moves w w' id) (orderly : w.Orderly)
    (justified : w.Justified) : w'.Justified := by
  cases moves.sorts orderly with
  | idle same => rwa [same]
  | turns comes turn moved => exact justified.turns orderly comes turn moved
  | quiet moved _ quiet =>
    intro now
    rw [moved.session] at now ⊢
    rw [quiet.token, moved.log]
    rw [quiet.phase] at now
    exact (justified now).imp_right fun refused => refused.append quiet.undone

theorem Reachable.justified (reachable : w.Reachable) : w.Justified :=
  reachable.induction (fun _ _ _ => nofun)
    fun _ action orderly => (step_moves orderly action).justified orderly

/-- If the store refuses the record, the phase is claimed over the one that was there before. -/
theorem Orderly.refuses (orderly : w.Orderly) {a : Await} {reply : Except AuthError a.Reply}
    {token : SessionToken} {e : AuthError} (has : w.Has t) (place : t.place = .asking a)
    (inTime : a.phase? = some w.session.state.phase)
    (keeps : Session.Keeps w.session.state.token a reply token .verified)
    (unsaved : (TokenStore.save w.session.store token).1 = .error e) :
    let left := w.step (.answer t.id a.method reply)
    left.session.state.phase = .verified ∧ left.session.state.token = w.session.state.token ∧
      Refused left.log ∧ (t.call.isStartup = false →
        ∃ notes, left.log = w.log ++ notes ∧ .returned t.id (.error e) ∈ notes) := by
  intro left
  have moved := orderly.answered has place reply (.error e)
    (Session.perform_resume_refused inTime keeps unsaved)
  have noted : left.log = w.log ++ .answered t.id a.method reply ::
      .did t.id (.saved token false) :: closing t w.flight.lock
        ((w.session.inPhase .verified).wrote token).rested (.error e) := by
    rw [moved.log]
    simp [orderly.rested, unsaved, Except.isOk, Except.toBool, Except.map]
  refine ⟨?_, ?_, ?_, ?_⟩
  · rw [moved.session, settled_phase]
    rfl
  · rw [moved.session, settled_token]
    rfl
  · refine ⟨_, t.id, _, token, _, noted, Session.confirms_of_keeps keeps t.id, ?_⟩
    intro other deed
    exact closing_undone _ _ other deed
  · intro other
    refine ⟨_, noted, ?_⟩
    apply List.mem_cons_of_mem
    apply List.mem_cons_of_mem
    exact returned_of_farewell t w.flight.lock _ (.error e) other

/-- Phase verified is claimed over a verified record, unless the store did not take the last one that
an answer confirmed; and whenever it does not take one, the phase is claimed all the same. -/
theorem verified_unless_refused [LawfulStore σ] (reachable : w.Reachable) :
    (w.session.state.phase = .verified →
      w.session.state.token.isPresent = true ∧ w.session.state.token.verified = true ∨
        w.session.state.token.verified = false ∧ Refused w.log) ∧
      ∀ (t : Task) (a : Await) (reply : Except AuthError a.Reply) (token : SessionToken)
        (e : AuthError), w.Has t → t.place = .asking a → a.phase? = some w.session.state.phase →
        Session.Keeps w.session.state.token a reply token .verified →
        (TokenStore.save w.session.store token).1 = .error e →
        let left := w.step (.answer t.id a.method reply)
        left.session.state.phase = .verified ∧
          left.session.state.token = w.session.state.token ∧ Refused left.log ∧
          (t.call.isStartup = false →
            ∃ notes, left.log = w.log ++ notes ∧ .returned t.id (.error e) ∈ notes) := by
  constructor
  · intro claimed
    cases verified : w.session.state.token.verified with
    | true => exact .inl ⟨reachable.trusted.session.backed verified, rfl⟩
    | false =>
      rcases reachable.justified claimed with marked | refused
      · simp [verified] at marked
      · exact .inr ⟨rfl, refused⟩
  · intro t a reply token e has place inTime keeps unsaved
    exact reachable.orderly.refuses has place inTime keeps unsaved

section Fault

def challenged : SessionToken := { token := some "t", account := some "a", nonce := some "n" }

def submitted : SignatureSubmission :=
  { signed := { message := "m", nonce := "n", signature := [] }, publicKey := "k" }

/-- The first call is a handshake that succeeds. -/
def signIn : List Action :=
  [.start .handshake false, .answer 0 .account (.ok "a"), .answer 0 .issue (.ok challenged),
    .answer 0 .signMessage (.ok ⟨true, some submitted.signed⟩),
    .answer 0 .publicKey (.ok submitted.publicKey), .answer 0 .verify (.ok { verified := true })]

/-- A handshake waits for the verification of its signature, and the disk has become full. -/
def verifying : World (FaultyStore MemoryStore) :=
  (ofSession (Session.create ⟨"", "", ""⟩ true
      (⟨⟨none⟩, [none, some (.storage "disk full")], []⟩ : FaultyStore MemoryStore))).steps
    [.start .handshake false, .answer 0 .account (.ok "a"), .answer 0 .issue (.ok challenged),
      .answer 0 .signMessage (.ok ⟨true, some submitted.signed⟩),
      .answer 0 .publicKey (.ok submitted.publicKey)]

theorem verifying_reachable : verifying.Reachable := ⟨_, _, _, _, rfl⟩

theorem verifying_has : verifying.Has ⟨0, .handshake, false, .asking (.verify submitted)⟩ := rfl

theorem verifying_token : verifying.session.state.token = challenged := rfl

theorem verifying_phase : verifying.session.state.phase = .pendingVerification := rfl

theorem verifying_keeps : Session.Keeps verifying.session.state.token (.verify submitted)
    (.ok { verified := true }) (verifying.session.state.token.merge { verified := true })
    .verified := by
  apply Session.Keeps.accepted
  rw [verifying_token]
  decide

/-- The answer that should end the handshake leaves the phase ahead of the record. -/
theorem claimed_over_refused_record :
    let left := verifying.step (.answer 0 .verify (.ok { verified := true }))
    left.session.state.phase = .verified ∧ left.session.state.token = challenged ∧
      Refused left.log ∧ ∃ notes, left.log = verifying.log ++ notes ∧
        .returned 0 (.error (.storage "disk full")) ∈ notes := by
  intro left
  have unsaved : (TokenStore.save verifying.session.store
      (verifying.session.state.token.merge { verified := true })).1 =
        .error (.storage "disk full") := rfl
  obtain ⟨phase, same, refused, told⟩ := (verified_unless_refused verifying_reachable).2 _ _ _ _ _
    verifying_has rfl (congrArg some verifying_phase.symm) verifying_keeps unsaved
  exact ⟨phase, same.trans verifying_token, refused, told rfl⟩

/-- So the phase alone does not say that the record is verified. -/
theorem not_always_verified :
    ¬∀ w : World (FaultyStore MemoryStore), w.Reachable → w.session.state.phase = .verified →
      w.session.state.token.isPresent = true ∧ w.session.state.token.verified = true := by
  intro always
  let left := verifying.step (.answer 0 .verify (.ok { verified := true }))
  have phase : left.session.state.phase = .verified := rfl
  have same : left.session.state.token = challenged := rfl
  obtain ⟨_, verified⟩ := always left (verifying_reachable.step _) phase
  rw [same] at verified
  exact absurd verified (by decide)

end Fault

end World

end WalletSession
