import WalletSession.Proofs.World.Checked
import WalletSession.Proofs.World.Restart
import WalletSession.Proofs.World.Returns

/-! Revalidation never touches the nonce. A check, startup and the first stage of connecting write a
record only in answer to a question about the current one, which is still current then: whatever the
answer holds, the record keeps its nonce, in memory and in the store, or it is forgotten as a whole. -/
namespace WalletSession

namespace SessionToken

variable (t : SessionToken)

@[simp] theorem nonce_normalized : t.normalized.nonce = t.nonce := by
  unfold normalized
  split <;> rfl

end SessionToken

namespace Call

/-- The call looks at a record that there is, before it does anything else about it. -/
def revalidates : Call → Bool
  | .init | .observe | .check | .connect => true
  | _ => false

end Call

namespace Await

/-- Such a call asks only whether the wallet is there and what the backend says of the record, and
connecting then for an account. -/
theorem enquires {a : Await} {call : Call} (suits : a.isOf call = true)
    (looks : call.revalidates = true) (first : a.isOf .handshake = true → a = .account) :
    a.request = .isConnected ∨ a.request = .connect ∨ (∃ current, a.request = .status current) ∨
      call = .connect ∧ a.request = .account := by
  cases a with
  | startupWallet | connectedWallet => exact .inl rfl
  | walletPrompt => exact .inr (.inl rfl)
  | status current => exact .inr (.inr (.inl ⟨current, rfl⟩))
  | account =>
    refine .inr (.inr (.inr ⟨?_, rfl⟩))
    cases call <;> first | rfl | contradiction
  | issue | signature | publicKey | verify => cases first rfl
  | walletLogout | revoke | balance | network | deposit => cases call <;> contradiction

end Await

theorem asked_of_mark {log : List Note} {id : Nat} {method : Method}
    (mark : .asks id method ∈ marks log) : ∃ request, .asked id request ∈ log ∧ request.method = method := by
  obtain ⟨n, member, same⟩ := List.mem_filterMap.mp mark
  cases n with
  | asked other request =>
    simp only [Note.mark?, Option.ite_none_right_eq_some, Option.some.injEq, Mark.asks.injEq] at same
    obtain ⟨_, rfl, rfl⟩ := same
    exact ⟨request, member, rfl⟩
  | _ => simp [Note.mark?] at same

variable {σ : Type} [TokenStore σ]

namespace Session

variable {s s' : Session σ} {call : Call} {occasion : Occasion} {result : Except AuthError Move}

/-- A check ends with the answer to its question, unless connecting falls back to a handshake. -/
theorem Turn.status_waits {current : SessionToken} {reply : Except AuthError SessionToken}
    {next : Await} (turn : Turn call s (.answer (.status current) reply) (.ok (.stop (.wait next))) s') :
    call = .connect := by
  cases turn with
  | asks asks => cases asks
  | revalidates checks => cases checks
  | fallsBack only => exact only

/-- Without a step of a handshake before, the first one is to ask for the account. -/
theorem Turn.asks_account {next : Await} (turn : Turn call s occasion (.ok (.stop (.wait next))) s')
    (early : ∀ a ∈ occasion.await?, a.isOf .handshake = false)
    (shakes : next.isOf .handshake = true) : next = .account := by
  cases turn with
  | asks asks => simpa [Await.isAboard_of_handshake shakes] using asks.outside
  | logsOut _ next => rcases next with rfl | rfl <;> contradiction
  | setsOut | prompts | revalidates => contradiction
  | startsOver | fallsBack => rfl
  | starts | keepsChallenge | signs | submits => cases early _ rfl

/-- A check that has been answered says yes only if the answer confirms the record. -/
theorem Turn.says_yes {current : SessionToken} {reply : Except AuthError SessionToken} {v : Value}
    (turn : Turn call s (.answer (.status current) reply) (.ok (.stop (.finish v))) s')
    (yes : v.isNo = false) :
    s.state.phase = .revalidating ∧ ∃ answer, reply = .ok answer ∧
      (TokenStore.save s.store (revalidated current answer)).1 = .ok () ∧
      s' = s.confirmed (revalidated current answer) := by
  cases turn with
  | isUnready _ denies => cases denies
  | returns ends => cases ends
  | forgets _ no | fallsBackVainly _ _ no => simp [no] at yes
  | confirms phase keeps saved =>
    cases keeps with
    | renewed => exact ⟨(Option.some.inj phase).symm, _, rfl, saved, rfl⟩

variable [LawfulStore σ]

/-- The nonce of the record that the store holds. -/
def storedNonce (s : Session σ) : Option String :=
  ((LawfulStore.record s.store).bind SessionToken.ofRecord?).bind (·.nonce)

theorem storedNonce_congr (record : LawfulStore.record s'.store = LawfulStore.record s.store) :
    s'.storedNonce = s.storedNonce := by
  rw [storedNonce, record, storedNonce]

theorem storedNonce_of_record {token : SessionToken}
    (record : LawfulStore.record s.store = some (Wire.encode token)) : s.storedNonce = token.nonce := by
  rw [storedNonce, record, Option.bind_some, SessionToken.ofRecord?_encode_eq, Option.bind_some,
    SessionToken.nonce_normalized, SessionToken.echoed]

theorem Mirrored.storedNonce (mirrored : s.Mirrored) : s.storedNonce = s.state.token.nonce := by
  rcases mirrored with ⟨record, _⟩ | same
  · exact storedNonce_of_record record
  · rw [Session.storedNonce, ← same]
    cases (LawfulStore.record s.store).bind SessionToken.ofRecord? <;> rfl

/-- The store holds the record in memory, unless that was forgotten. The store may have refused to
forget it then. -/
def Held (s : Session σ) : Prop := s.state.token = {} ∨ s.Mirrored

theorem Held.congr (held : s.Held) (token : s'.state.token = s.state.token)
    (record : LawfulStore.record s'.store = LawfulStore.record s.store) : s'.Held :=
  held.imp token.trans (·.congr token record)

theorem Turn.held (turn : Turn call s occasion result s') (held : s.Held) : s'.Held := by
  cases turn with
  | boards | ready | asks | isUnready | returns | fails | setsOut | lacksWallet | prompts | isRefused
  | cannotCheck | revalidates | starts | overtaken | signs | submits | givesUp | isUnanswered =>
    exact held.congr rfl rfl
  | logsOut | forgetsFailing | forgets | startsOver | fallsBackFailing | fallsBackVainly
  | fallsBack => exact .inl rfl
  | keepsChallenge _ _ saved =>
    exact .inr (.wrote (s := s.inPhase _) (SessionToken.isBacked_merge _ _) saved)
  | confirms _ keeps saved =>
    have wrote := Mirrored.wrote (s := s.inPhase .verified) (isBacked_kept keeps) saved
    exact .inr (wrote.congr rfl rfl)
  | isRejected _ keeps saved =>
    exact .inr (.wrote (s := s.inPhase _) (isBacked_kept keeps) saved)
  | cannotKeep _ _ unsaved => exact held.congr rfl (LawfulStore.refusesSave unsaved)

/-- The nonce is as it was, or is gone with the whole record. -/
structure KeepsNonce (s s' : Session σ) : Prop where
  current : s'.state.token.nonce = s.state.token.nonce ∨ s'.state.token = {}
  stored : s'.storedNonce = s.storedNonce ∨ LawfulStore.record s'.store = none

theorem KeepsNonce.unchanged (token : s'.state.token = s.state.token)
    (record : LawfulStore.record s'.store = LawfulStore.record s.store) : KeepsNonce s s' :=
  ⟨.inl (congrArg _ token), .inl (storedNonce_congr record)⟩

theorem KeepsNonce.congr {last : Session σ} (keeps : KeepsNonce s s')
    (token : last.state.token = s'.state.token)
    (record : LawfulStore.record last.store = LawfulStore.record s'.store) : KeepsNonce s last where
  current := by rw [token]; exact keeps.current
  stored := by rw [storedNonce_congr record, record]; exact keeps.stored

theorem KeepsNonce.forgotten (s : Session σ) : KeepsNonce s s.forgotten :=
  ⟨.inr rfl, (record_forgotten s).symm.imp_left storedNonce_congr⟩

theorem KeepsNonce.forgotten_twice (s : Session σ) : KeepsNonce s s.forgotten.forgotten := by
  rcases record_forgotten s.forgotten with none | same
  · exact ⟨.inr rfl, .inr none⟩
  · exact (forgotten s).congr rfl same

/-- Before a handshake starts, what is kept is the record that was asked about, with its own nonce. -/
theorem Turn.keepsNonce (turn : Turn call s occasion result s') (held : s.Held)
    (early : ∀ a ∈ occasion.await?, a.isOf .handshake = false)
    (asked : ∀ current, occasion.await? = some (.status current) →
      s.state.phase = .revalidating → s.state.token = current ∧ current.isPresent = true) :
    KeepsNonce s s' := by
  cases turn with
  | boards | ready | asks | isUnready | returns | fails | setsOut | lacksWallet | prompts | isRefused
  | cannotCheck | revalidates | starts | overtaken | signs | submits | givesUp | isUnanswered =>
    exact .unchanged rfl rfl
  | logsOut | forgetsFailing | forgets | startsOver => exact .forgotten s
  | fallsBackFailing | fallsBackVainly | fallsBack => exact .forgotten_twice s
  | keepsChallenge | isRejected => cases early _ rfl
  | cannotKeep _ _ unsaved => exact .unchanged rfl (LawfulStore.refusesSave unsaved)
  | confirms phase keeps saved =>
    cases keeps with
    | accepted => cases early _ rfl
    | @renewed current answer =>
      obtain ⟨same, present⟩ := asked current rfl (Option.some.inj phase).symm
      have kept : s.state.token.nonce = (revalidated current answer).nonce := by
        rw [same, revalidated]
      have mirrored : s.Mirrored := held.resolve_left fun empty => by
        rw [← same, empty] at present
        contradiction
      refine ⟨.inl kept.symm, .inl ?_⟩
      rw [mirrored.storedNonce, kept]
      exact storedNonce_of_record (LawfulStore.saves saved)

end Session

namespace World

variable {w w' : World σ} {t u : Task} {id : Nat} {occasion : Occasion} {lock : Lock}
  {notes : List Note} {s : Session σ} {a : Await}

/-- While a call waits on the flight, another one leaves the session alone or disconnects it. -/
theorem Comes.leaves_alone {result : Except AuthError Move} (comes : Comes w t occasion lock notes)
    (orderly : w.Orderly) (turn : Session.Turn t.call w.session occasion result s)
    (flies : w.Flies u a) (other : u.id ≠ t.id) :
    s = w.session ∨ t.call = .disconnect ∧ s = w.session.forgotten := by
  cases ashore : occasion.isAshore with
  | true => exact turn.ashore ashore
  | false =>
    obtain ⟨rfl, _⟩ := comes.alone orderly ashore flies
    exact absurd rfl other

/-- While a check is under way, the record is the one that it has asked about. -/
def Examining (w : World σ) : Prop :=
  ∀ t current, w.Has t → t.place = .asking (.status current) →
    w.session.state.phase = .revalidating →
      w.session.state.token = current ∧ current.isPresent = true

theorem Moves.examining (moves : Moves w w' id) (orderly : w.Orderly) (examining : w.Examining) :
    w'.Examining := by
  intro u current has place phase
  cases moves.sorts orderly with
  | idle same =>
    subst same
    exact examining u current has place phase
  | turns comes turn moved =>
    simp only [moved.session, settled_phase, settled_token, Session.rested_state] at phase ⊢
    rcases moved.has_cases has with ⟨p, goes, rfl⟩ | ⟨other, had⟩
    · obtain ⟨next, rfl, rfl⟩ := rest_eq_some goes
      cases place
      cases turn with
      | asks asks => cases asks
      | logsOut _ next => rcases next with next | next <;> cases next
      | revalidates _ present => exact ⟨rfl, present⟩
    · rcases comes.leaves_alone orderly turn ⟨had, place, rfl⟩ other with rfl | ⟨_, rfl⟩
      · exact examining u current had place phase
      · contradiction
  | quiet moved _ quiet =>
    rw [moved.session, quiet.phase] at phase
    rw [moved.session, quiet.token]
    rcases moved.has_cases has with ⟨p, goes, rfl⟩ | ⟨_, had⟩
    · cases place
      exact absurd goes (quiet.silent _)
    · exact examining u current had place phase

theorem Reachable.examining (reachable : w.Reachable) : w.Examining :=
  reachable.induction (fun _ _ _ _ _ has => nomatch has)
    fun _ action orderly => (step_moves orderly action).examining orderly

/-- A check has asked nothing but what it waits for. -/
def Terse (w : World σ) : Prop :=
  ∀ t request, w.Has t → t.call = .check → .asked t.id request ∈ w.log →
    ∃ a, t.place = .asking a ∧ a.request = request

theorem Moves.terse (moves : Moves w w' id) (orderly : w.Orderly) (terse : w.Terse) :
    w'.Terse := by
  intro u request has only asked
  cases moves.sorts orderly with
  | idle same =>
    subst same
    exact terse u request has only asked
  | @turns t occasion lock notes result s comes turn moved =>
    rw [moved.log, List.mem_append] at asked
    rcases moved.has_cases has with ⟨p, goes, rfl⟩ | ⟨other, had⟩
    · obtain ⟨next, rfl, rfl⟩ := rest_eq_some goes
      refine ⟨next, rfl, ?_⟩
      rcases asked with before | now
      · -- It has asked before, so that this is the answer, and a check ends with it.
        have had := comes.known.resolve_left (Nat.ne_of_lt (orderly.noted before))
        obtain ⟨a, place, _⟩ := terse t request had only before
        have suits := orderly.suits had
        rw [Task.Suits, place, show t.call = .check from only] at suits
        obtain ⟨reply, rfl, _⟩ :=
          comes.answers orderly had place (Await.isAboard_of_boards suits.1 rfl)
        obtain ⟨current, rfl⟩ : ∃ current, a = .status current := by
          cases a <;> first | exact ⟨_, rfl⟩ | exact absurd suits.1 Bool.false_ne_true
        cases turn.status_waits.symm.trans only
      · simp only [List.mem_append, List.mem_map, reduceCtorEq, and_false, exists_false, or_false]
          at now
        have asks := List.mem_singleton.mp (now.resolve_left (comes.unasked _ _))
        exact (Note.asked.inj asks).2.symm
    · refine terse u request had only (asked.resolve_right fun now => other ?_)
      exact (orderly.turns comes turn).mine now
  | @quiet t lock place s notes moved respects quiet =>
    rw [moved.log, List.mem_append] at asked
    have before := asked.resolve_right (quiet.unasked _ _)
    rcases moved.has_cases has with ⟨p, goes, rfl⟩ | ⟨_, had⟩
    · have had := quiet.known.resolve_left (Nat.ne_of_lt (orderly.noted before))
      obtain ⟨a, asking, _⟩ := terse t request had only before
      have suits := orderly.suits had
      rw [Task.Suits, asking, show t.call = .check from only] at suits
      have holds := orderly.aboard had asking (Await.isAboard_of_boards suits.1 rfl)
      exact absurd (Lock.mem_line.mpr (.inl holds)) (quiet.ashore (by simp [goes]))
    · exact terse u request had only before

theorem Reachable.terse (reachable : w.Reachable) : w.Terse :=
  reachable.induction (fun _ _ _ _ _ has => nomatch has)
    fun _ action orderly => (step_moves orderly action).terse orderly

/-- A handshake under way has asked for the account. -/
theorem Reachable.asked_account (reachable : w.Reachable) (has : w.Has t)
    (place : t.place = .asking a) (shakes : a.isOf .handshake = true) :
    .asked t.id .account ∈ w.log := by
  have flies : w.Flies t a := ⟨has, place, Await.isAboard_of_handshake shakes⟩
  cases reachable.charted with
  | grounded _ nobody => exact absurd flies (nobody t a)
  | @aloft past f u b before now carries trace =>
    obtain rfl := reachable.orderly.alone now flies
    obtain rfl : a = b := Place.asking.inj (place.symm.trans now.2.1)
    have first : Method.account ∈ f.handshake := by
      rw [carries.reaches.1]
      cases a <;> first | contradiction | simp [Await.progress, handshakeSteps]
    have mark : .asks t.id .account ∈ marks w.log := by
      rw [trace, carries.trace_eq]
      simp [first]
    obtain ⟨request, asked, method⟩ := asked_of_mark mark
    obtain rfl : request = .account := by cases request <;> first | rfl | cases method
    exact asked

/-- A call that looks at a record comes to its stretch before any step of a handshake, if it has not
asked for the account. -/
theorem Comes.unshaken (comes : Comes w t occasion lock notes) (reachable : w.Reachable)
    (looks : t.call.revalidates = true)
    (stage : t.call = .connect → .asked t.id .account ∉ w.log) :
    ∀ a ∈ occasion.await?, a.isOf .handshake = false := by
  intro b last
  cases comes with
  | @answered a has place reply =>
    obtain rfl := Option.some.inj last
    refine Bool.eq_false_iff.mpr fun shakes => ?_
    have suits := reachable.orderly.suits has
    rw [Task.Suits, place] at suits
    have connects : t.call = .connect := by
      have shares : t.call.isShareable = true := by
        cases a <;> first | exact suits.1 | contradiction
      cases call : t.call <;> simp_all [Call.revalidates, Call.isShareable]
    exact stage connects (reachable.asked_account has place shakes)
  | _ => contradiction

variable [LawfulStore σ]

theorem Moves.held (moves : Moves w w' id) (orderly : w.Orderly) (held : w.session.Held) :
    w'.session.Held := by
  cases moves.sorts orderly with
  | idle same => rwa [same]
  | turns comes turn moved =>
    exact (turn.held held).congr (by simp [moved.session]) (by simp [moved.session])
  | quiet moved _ quiet =>
    exact held.congr (by rw [moved.session, quiet.token]) (by rw [moved.session, quiet.store])

theorem Reachable.held [SteadyStore σ] (reachable : w.Reachable) : w.session.Held :=
  reachable.induction (fun chain hasWallet store => .inr (.create chain hasWallet store))
    fun _ action orderly => (step_moves orderly action).held orderly

/-- What holds of the session after a step of a call that looks at a record, and of what it asks. -/
theorem Moves.keepsNonce (moves : Moves w w' id) (reachable : w.Reachable) (held : w.session.Held)
    {number : Nat} {call : Call} (mover : number = id) (started : .started number call ∈ w'.log)
    (looks : call.revalidates = true)
    (stage : call = .connect → .asked number .account ∉ w.log)
    (log : w'.log = w.log ++ notes) :
    w.session.KeepsNonce w'.session ∧ ∀ request, .asked number request ∈ notes →
      request = .isConnected ∨ request = .connect ∨ (∃ current, request = .status current) ∨
        call = .connect ∧ request = .account := by
  subst mover
  have orderly := reachable.orderly
  have registered := moves.registered orderly reachable.registered
  cases moves.sorts orderly with
  | idle same =>
    obtain rfl : notes = [] := by simpa [same] using log
    exact ⟨same ▸ .unchanged rfl rfl, by simp⟩
  | @turns t occasion lock now result s comes turn moved =>
    obtain rfl := List.append_cancel_left (log.symm.trans moved.log)
    have known := reachable.registered.lists_turned orderly comes moved.log
    obtain rfl := registered.once known started
    have early := comes.unshaken reachable looks stage
    have examined (current : SessionToken) (last : occasion.await? = some (.status current))
        (phase : w.session.state.phase = .revalidating) :
        w.session.state.token = current ∧ current.isPresent = true := by
      cases comes with
      | answered has place _ =>
        obtain rfl := Option.some.inj last
        exact reachable.examining t current has place phase
      | _ => contradiction
    constructor
    · rw [moved.session]
      exact (turn.keepsNonce held early examined).congr (by simp) (by simp)
    · intro request asked
      simp only [List.mem_append, List.mem_map, reduceCtorEq, and_false, exists_false, or_false]
        at asked
      rcases closing_cases (asked.resolve_left (comes.unasked _ _)) with final | ⟨a, rfl, same⟩
      · contradiction
      · obtain ⟨_, rfl⟩ := Note.asked.inj same
        exact Await.enquires (turn.waits (comes.fits orderly)).1 looks (turn.asks_account early)
  | quiet moved _ quiet =>
    obtain rfl := List.append_cancel_left (log.symm.trans moved.log)
    refine ⟨.unchanged ?_ ?_, fun request asked => absurd asked (quiet.unasked _ _)⟩
    · rw [moved.session, quiet.token]
    · rw [moved.session, quiet.store]

/-- A check that asked says yes with the answer, and keeps the record that the answer makes of the one
that it asked about. -/
theorem Moves.says_yes (moves : Moves w w' id) (reachable : w.Reachable) {number : Nat}
    {current : SessionToken} (log : w'.log = w.log ++ notes)
    (started : .started number .check ∈ w'.log)
    (told : .returned number (.ok (.flag true)) ∈ notes)
    (asked : .asked number (.status current) ∈ w.log) :
    w.session.state.token = current ∧ ∃ answer, .answered number .status (.ok answer) ∈ notes ∧
      w'.session.state.token = { current.merge answer with nonce := current.nonce } ∧
      LawfulStore.record w'.session.store = some (Wire.encode w'.session.state.token) := by
  have orderly := reachable.orderly
  obtain ⟨t, rfl, only, returns⟩ := moves.returns orderly reachable.registered log told started
  have other : t.call.isStartup = false := by
    rw [only]
    rfl
  have asking {t : Task} (has : w.Has t) (only : t.call = .check)
      (asked : .asked t.id (.status current) ∈ w.log) : t.place = .asking (.status current) := by
    obtain ⟨a, place, same⟩ := reachable.terse t _ has only asked
    obtain rfl : a = .status current := by
      cases a <;> first | (cases same; rfl) | cases same
    exact place
  generalize same : Except.ok (Value.flag true) = result at returns
  cases returns with
  | shares has place => cases place.symm.trans (asking has only asked)
  | observes _ _ observer => cases observer.symm.trans only
  | @ends occasion lock notes value s comes turn moved =>
    rw [Session.told_of_other _ _ other] at same
    subst same
    have has := comes.known.resolve_left (Nat.ne_of_lt (orderly.noted asked))
    have place := asking has only asked
    obtain ⟨reply, rfl, rfl⟩ := comes.answers orderly has place rfl
    obtain ⟨phase, answer, rfl, saved, rfl⟩ := turn.says_yes rfl
    have token := (reachable.examining t current has place phase).1
    have session := moved.session.trans (Session.concluded_of_other _ _ other)
    refine ⟨token, answer, List.mem_append_left _ (List.mem_append_left _ List.mem_cons_self), ?_, ?_⟩
    · rw [session]
      rfl
    · rw [session]
      exact LawfulStore.saves saved

/-- Revalidation never touches the nonce, whatever the backend answers and whoever else is about: it
stays as it is in memory and in the store, or goes with the whole record. Nothing is issued, signed or
verified meanwhile, and a check that says yes leaves the record that it has asked about, with what the
answer says and with its own nonce. -/
theorem revalidation_keeps_nonce [SteadyStore σ] (reachable : w.Reachable) {action : Action}
    {call : Call} (log : (w.step action).log = w.log ++ notes)
    (started : .started (w.caller action) call ∈ (w.step action).log)
    (looks : call.revalidates = true)
    (stage : call = .connect → .asked (w.caller action) .account ∉ w.log) :
    let before := w.session
    let after := (w.step action).session
    (after.state.token.nonce = before.state.token.nonce ∨ after.state.token = {}) ∧
      (after.storedNonce = before.storedNonce ∨ LawfulStore.record after.store = none) ∧
      (∀ request, .asked (w.caller action) request ∈ notes →
        request = .isConnected ∨ request = .connect ∨ (∃ current, request = .status current) ∨
          call = .connect ∧ request = .account) ∧
      (call = .check → .returned (w.caller action) (.ok (.flag true)) ∈ notes →
        ∀ current, .asked (w.caller action) (.status current) ∈ w.log →
          before.state.token = current ∧
            ∃ answer, .answered (w.caller action) .status (.ok answer) ∈ notes ∧
              after.state.token = { current.merge answer with nonce := current.nonce } ∧
              LawfulStore.record after.store = some (Wire.encode after.state.token)) := by
  intro before after
  have moves := step_moves reachable.orderly action
  obtain ⟨⟨current, stored⟩, enquires⟩ :=
    moves.keepsNonce reachable reachable.held rfl started looks stage log
  refine ⟨current, stored, enquires, fun only told current asked => ?_⟩
  exact moves.says_yes reachable log (only ▸ started) told asked

/-- The backend confirms a record under another nonce and for another account, while another check
waits. -/
theorem foreign_nonce_is_refused :
    let w := (ofSession (Session.create ⟨"", "", ""⟩ true (⟨none⟩ : MemoryStore))).steps
      [.start .handshake false, .answer 0 .account (.ok "a"),
        .answer 0 .issue (.ok { token := some "t", account := some "a", nonce := some "n" }),
        .answer 0 .signMessage (.ok ⟨true, some { message := "m", nonce := "n", signature := [] }⟩),
        .answer 0 .publicKey (.ok "k"), .answer 0 .verify (.ok { verified := true }),
        .start .check false, .start .check false]
    let answer : SessionToken :=
      { token := some "u", account := some "b", nonce := some "o", verified := true }
    let checked := w.step (.answer 1 .status (.ok answer))
    .started 1 .check ∈ checked.log ∧ .returned 1 (.ok (.flag true)) ∈ checked.log ∧
      checked.session.state.token = { answer with nonce := some "n" } ∧
      (checked.session.storedNonce = w.session.storedNonce ∨
        LawfulStore.record checked.session.store = none) ∧
      LawfulStore.record checked.session.store = some (Wire.encode checked.session.state.token) := by
  intro w answer checked
  have reachable : w.Reachable := ⟨_, _, _, _, rfl⟩
  have log : checked.log = w.log ++ checked.log.drop w.log.length := rfl
  have started : .started 1 .check ∈ checked.log := List.mem_of_getElem? (i := 17) rfl
  have told : .returned 1 (.ok (.flag true)) ∈ checked.log.drop w.log.length :=
    List.mem_of_getElem? (i := 3) rfl
  have asked : .asked 1 (.status w.session.state.token) ∈ w.log := List.mem_of_getElem? (i := 19) rfl
  obtain ⟨_, stored, _, yes⟩ := revalidation_keeps_nonce reachable log started rfl nofun
  obtain ⟨_, _, _, _, kept⟩ := yes rfl told _ asked
  exact ⟨started, List.drop_subset _ _ told, rfl, stored, kept⟩

end World

end WalletSession
