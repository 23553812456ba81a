import WalletSession.Proofs.World.Connected
import WalletSession.Proofs.World.Flights
import WalletSession.Proofs.World.Fresh

/-! Where the mark of verification comes from. A record that bears it is made only of an answer that
bears it too. Besides the answers to a check and to a signature that may be the answer that issues
the challenge, so that a handshake is unmarked until its signature is checked just if the challenge
does not come with the mark. -/
namespace WalletSession

variable {σ : Type}

/-- The backend calls the record verified as it issues the challenge. -/
inductive Presumes (id : Nat) : Note → SessionToken → Prop
  | issue {draft answer : SessionToken} (verified : answer.verified = true) :
      Presumes id (.answered id .issue (.ok answer)) (draft.merge answer)

theorem SessionToken.verified_of_issued (account : String) (answer : SessionToken) :
    ((withAccount account).merge answer).verified = true ↔
      answer.verified = true ∧ answer.token.isSome = true := by
  rw [verified_merge, Bool.and_eq_true]
  simp [isPresent, withAccount]

theorem Await.isAboard_of_handshake {a : Await} (handshake : a.isOf .handshake = true) :
    a.isAboard = true := by
  cases a <;> first | rfl | contradiction

/-- A handshake that waits here has got its challenge. -/
def Await.isChallenged : Await → Bool
  | .signature _ | .publicKey _ | .verify _ => true
  | _ => false

namespace Session

variable [TokenStore σ] {s s' : Session σ} {call : Call} {occasion : Occasion}
  {log log' : List Note} {id : Nat}

theorem marked_of_keeps {held token : SessionToken} {a : Await} {reply : Except AuthError a.Reply}
    {phase : Phase} (keeps : Keeps held a reply token phase) (verified : token.verified = true)
    (id : Nat) : Confirms id (.answered id a.method reply) token ∨
      Presumes id (.answered id a.method reply) token := by
  cases keeps with
  | challenge => exact .inr (.issue (SessionToken.verified_of_merge verified))
  | renewed valid => exact .inl (.status (SessionToken.verified_of_merge valid))
  | accepted valid => exact .inl (.verify (SessionToken.verified_of_merge valid))
  | rejected invalid => simp [invalid] at verified

/-- A stretch makes a marked record only of the answer that it goes on from. -/
theorem Turn.marks {result : Except AuthError Move} {token : SessionToken}
    (turn : Turn call s occasion result s') (rested : s.deeds = [])
    (makes : s'.state.token = token ∧ s.state.token ≠ token ∨
      ∃ saved, .saved token saved ∈ s'.deeds) (verified : token.verified = true) :
    ∃ a reply, occasion = .answer a reply ∧ ∀ id, Confirms id (.answered id a.method reply) token ∨
      Presumes id (.answered id a.method reply) token := by
  rcases turn.records rested with
    ⟨same, unsaved⟩ | ⟨a, reply, kept, phase, rfl, _, keeps, only, same⟩
  · rcases makes with ⟨now, before⟩ | ⟨saved, member⟩
    · rcases same with same | same
      · exact absurd (same.symm.trans now) before
      · rw [← now, same] at verified
        contradiction
    · exact absurd member (unsaved _ _)
  · have mine : token = kept := by
      rcases makes with ⟨now, before⟩ | ⟨saved, member⟩
      · rcases same with same | same
        · exact now.symm.trans same
        · exact absurd (same.symm.trans now) before
      · exact only _ _ member
    subst mine
    exact ⟨a, reply, rfl, marked_of_keeps keeps verified⟩

variable [LawfulStore σ]

/-- There is no record, in memory or in the store. -/
structure Bare (s : Session σ) : Prop where
  token : s.state.token = {}
  record : LawfulStore.record s.store = none

/-- The challenge is current and stored. Or it was forgotten, though the store may have refused to
forget it. -/
inductive Challenged (s : Session σ) (kept : SessionToken) : Prop
  | current (token : s.state.token = kept)
      (record : LawfulStore.record s.store = some (Wire.encode kept))
  | forgotten (token : s.state.token = {}) (phase : s.state.phase = .unauthenticated)
      (record : LawfulStore.record s.store = none ∨
        LawfulStore.record s.store = some (Wire.encode kept))

/-- What a handshake that has come this far has made of the session. -/
def Left (log : List Note) (id : Nat) (s : Session σ) : Await → Prop
  | .account => s.Bare
  | .issue draft => s.Bare ∧ ∃ account, draft = .withAccount account
  | .signature _ | .publicKey _ | .verify _ =>
    ∃ account answer, .answered id .issue (.ok answer) ∈ log ∧
      s.Challenged ((SessionToken.withAccount account).merge answer)
  | _ => True

/-- Neither record is marked: the current one, and the one whose text the store holds. -/
structure Unmarked (s : Session σ) : Prop where
  current : s.state.token.verified = false
  stored {text : String} (held : LawfulStore.record s.store = some text) :
    ∃ token : SessionToken, text = Wire.encode token ∧ token.verified = false

section Updates

theorem record_forgotten (s : Session σ) : LawfulStore.record s.forgotten.store = none ∨
    LawfulStore.record s.forgotten.store = LawfulStore.record s.store := by
  cases cleared : (TokenStore.clear s.store).1 with
  | ok => exact .inl (LawfulStore.clears cleared)
  | error e => exact .inr (LawfulStore.refusesClear cleared)

theorem Bare.congr (bare : s.Bare) (token : s'.state.token = s.state.token)
    (record : LawfulStore.record s'.store = LawfulStore.record s.store) : s'.Bare :=
  ⟨token.trans bare.token, record.trans bare.record⟩

theorem Bare.forgotten (bare : s.Bare) : s.forgotten.Bare :=
  ⟨rfl, (record_forgotten s).elim id (·.trans bare.record)⟩

theorem Challenged.congr {kept : SessionToken} (challenged : s.Challenged kept)
    (token : s'.state.token = s.state.token) (phase : s'.state.phase = s.state.phase)
    (record : LawfulStore.record s'.store = LawfulStore.record s.store) : s'.Challenged kept := by
  cases challenged with
  | current held stored => exact .current (token.trans held) (record.trans stored)
  | forgotten held reset stored =>
    exact .forgotten (token.trans held) (phase.trans reset) (record ▸ stored)

theorem Challenged.forget {kept : SessionToken} (challenged : s.Challenged kept) :
    s.forgotten.Challenged kept := by
  refine .forgotten rfl rfl ?_
  rcases record_forgotten s with none | same
  · exact .inl none
  · rw [same]
    cases challenged with
    | current _ stored => exact .inr stored
    | forgotten _ _ stored => exact stored

theorem Left.of_other {a : Await} (other : a.isOf .handshake = false) : s.Left log id a := by
  cases a <;> trivial

theorem Left.congr {a : Await} (left : s.Left log id a) (grows : log ⊆ log')
    (token : s'.state.token = s.state.token) (phase : s'.state.phase = s.state.phase)
    (record : LawfulStore.record s'.store = LawfulStore.record s.store) : s'.Left log' id a := by
  cases a with
  | account => exact Bare.congr left token record
  | issue draft => exact ⟨left.1.congr token record, left.2⟩
  | signature | publicKey | verify =>
    obtain ⟨account, answer, heard, challenged⟩ := left
    exact ⟨account, answer, grows heard, challenged.congr token phase record⟩
  | _ => trivial

theorem Left.forgotten {a : Await} (left : s.Left log id a) : s.forgotten.Left log id a := by
  cases a with
  | account => exact Bare.forgotten left
  | issue draft => exact ⟨left.1.forgotten, left.2⟩
  | signature | publicKey | verify =>
    obtain ⟨account, answer, heard, challenged⟩ := left
    exact ⟨account, answer, heard, challenged.forget⟩
  | _ => trivial

end Updates

/-- A handshake starts from nothing, and keeps its challenge before it asks for a signature. -/
theorem Turn.left {next : Await} (turn : Turn call s occasion (.ok (.stop (.wait next))) s')
    (handshake : next.isOf .handshake = true) (grows : log ⊆ log')
    (before : ∀ a reply, occasion = .answer a reply → s.Left log id a)
    (heard : ∀ a reply, occasion = .answer a reply → .answered id a.method reply ∈ log') :
    s'.Left log' id next := by
  cases turn with
  | asks asks => simpa [Await.isAboard_of_handshake handshake] using asks.outside
  | logsOut _ next => rcases next with rfl | rfl <;> contradiction
  | setsOut | prompts | revalidates => contradiction
  | startsOver _ _ cleared => exact ⟨rfl, LawfulStore.clears cleared⟩
  | fallsBack _ _ _ _ cleared => exact ⟨rfl, LawfulStore.clears cleared⟩
  | starts => exact ⟨Bare.congr (before _ _ rfl) rfl rfl, _, rfl⟩
  | keepsChallenge _ _ saved =>
    obtain ⟨_, account, rfl⟩ := before _ _ rfl
    exact ⟨account, _, heard _ _ rfl, .current rfl (LawfulStore.saves saved)⟩
  | signs =>
    obtain ⟨account, answer, issued, challenged⟩ := before _ _ rfl
    exact ⟨account, answer, grows issued, challenged⟩
  | submits phase =>
    obtain ⟨account, answer, issued, challenged⟩ := before _ _ rfl
    refine ⟨account, answer, grows issued, ?_⟩
    -- The edge that was just taken is not there after a reset.
    cases challenged with
    | current token record => exact .current token record
    | forgotten _ reset => simp [phase] at reset

theorem Bare.unmarked (bare : s.Bare) : s.Unmarked where
  current := by rw [bare.token]
  stored held := by simp [bare.record] at held

theorem Challenged.unmarked {kept : SessionToken} (challenged : s.Challenged kept)
    (unverified : kept.verified = false) : s.Unmarked := by
  cases challenged with
  | current token record => exact ⟨token ▸ unverified, fun held => ⟨kept, by simp_all, unverified⟩⟩
  | forgotten token _ record =>
    refine ⟨by rw [token], fun held => ?_⟩
    rcases record with none | same
    · simp [none] at held
    · exact ⟨kept, by simp_all, unverified⟩

theorem Left.unmarked {a : Await} (left : s.Left log id a) (handshake : a.isOf .handshake = true)
    (unclaimed : ∀ answer, .answered id .issue (.ok answer) ∈ log → answer.verified = false) :
    s.Unmarked := by
  cases a with
  | account => exact Bare.unmarked left
  | issue draft => exact left.1.unmarked
  | signature | publicKey | verify =>
    obtain ⟨account, answer, issued, challenged⟩ := left
    refine challenged.unmarked ?_
    simp [Bool.eq_false_iff, SessionToken.verified_of_issued, unclaimed answer issued]
  | _ => contradiction

theorem Left.exact {a : Await} (left : s.Left log id a) (challenged : a.isChallenged = true)
    (inTime : s.state.phase ≠ .unauthenticated) :
    ∃ answer, .answered id .issue (.ok answer) ∈ log ∧
      LawfulStore.record s.store = some (Wire.encode s.state.token) ∧
      (s.state.token.verified = true ↔ answer.verified = true ∧ answer.token.isSome = true) := by
  cases a with
  | signature | publicKey | verify =>
    obtain ⟨account, answer, issued, kept⟩ := left
    refine ⟨answer, issued, ?_⟩
    cases kept with
    | current token record =>
      rw [token]
      exact ⟨record, SessionToken.verified_of_issued account answer⟩
    | forgotten _ reset => exact absurd reset inTime
  | _ => contradiction

end Session

namespace World

variable {w w' : World σ} {t : Task} {occasion : Occasion} {lock : Lock} {notes : List Note}

/-- The step makes the record current, or asks the store to take it. -/
def Makes (w w' : World σ) (token : SessionToken) : Prop :=
  (w'.session.state.token = token ∧ w.session.state.token ≠ token) ∨
    ∃ notes id saved, w'.log = w.log ++ notes ∧ .did id (.saved token saved) ∈ notes

variable [TokenStore σ]

theorem Moves.marks {id : Nat} (moves : Moves w w' id) (orderly : w.Orderly) {token : SessionToken}
    (makes : Makes w w' token) (verified : token.verified = true) :
    ∃ answer notes, w'.log = w.log ++ answer :: notes ∧
      (Confirms id answer token ∨ Presumes id answer token) := by
  cases moves.sorts orderly with
  | idle same =>
    rcases makes with ⟨now, before⟩ | ⟨notes, id, saved, log, member⟩
    · exact absurd (same ▸ now) before
    · rw [same, List.self_eq_append_right] at log
      simp [log] at member
  | @turns t occasion lock notes result s comes turn moved =>
    have made : s.state.token = token ∧ w.session.state.token ≠ token ∨
        ∃ saved, .saved token saved ∈ s.deeds := by
      rcases makes with ⟨now, before⟩ | ⟨more, id, saved, log, member⟩
      · exact .inl ⟨by simpa [moved.session] using now, before⟩
      · rw [moved.log, List.append_cancel_left_eq] at log
        simp only [← log, List.mem_append, List.mem_map] at member
        rcases member with (noted | ⟨deed, member, same⟩) | closed
        · exact absurd noted (comes.undone _ _)
        · cases same
          exact .inr ⟨saved, member⟩
        · exact absurd closed (closing_undone _ _ _ _)
    obtain ⟨a, reply, rfl, marked⟩ := turn.marks orderly.rested made verified
    cases comes with
    | answered =>
      have marked := marked t.id
      exact ⟨_, _, moved.log.trans (by rw [List.append_assoc, List.singleton_append]), marked⟩
  | quiet moved _ quiet =>
    rcases makes with ⟨now, before⟩ | ⟨more, id, saved, log, member⟩
    · rw [moved.session, quiet.token] at now
      exact absurd now before
    · rw [moved.log, List.append_cancel_left_eq] at log
      exact absurd (log ▸ member) (quiet.undone _ _)

variable [LawfulStore σ]

/-- The handshakes of a world have made of its session no more than they may. -/
def Modest (w : World σ) : Prop :=
  ∀ t a, w.Has t → t.place = .asking a → a.isOf .handshake = true → w.session.Left w.log t.id a

theorem Modest.turns {result : Except AuthError Move} {s : Session σ} (modest : w.Modest)
    (orderly : w.Orderly) (comes : Comes w t occasion lock notes)
    (turn : Session.Turn t.call w.session occasion result s)
    (moved : Moved w t lock (rest result) (settled s.rested t.call result)
      (notes ++ s.deeds.map (.did t.id) ++ closing t lock s.rested result) w') : w'.Modest := by
  intro u a has place handshake
  have grows : w.log ⊆ w'.log := moved.log ▸ List.subset_append_left ..
  suffices left : s.Left w'.log u.id a from
    left.congr (List.Subset.refl _) (by simp [moved.session]) (by simp [moved.session])
      (by simp [moved.session])
  rcases moved.has_cases has with ⟨p, goes, rfl⟩ | ⟨other, had⟩
  · obtain ⟨next, rfl, rfl⟩ := rest_eq_some goes
    cases place
    refine turn.left handshake grows ?_ ?_
    · rintro b reply rfl
      cases comes with
      | answered has asking _ =>
        cases handshake : b.isOf .handshake with
        | true => exact modest t b has asking handshake
        | false => exact .of_other handshake
    · rintro b reply rfl
      cases comes with
      | answered => simp [moved.log]
  · have left := modest u a had place handshake
    cases ashore : occasion.isAshore with
    | true =>
      have left := left.congr grows rfl rfl rfl
      rcases turn.ashore ashore with rfl | ⟨_, rfl⟩
      · exact left
      · exact left.forgotten
    | false =>
      -- The handshake holds the flight, so nobody else works on it.
      have flies : w.Flies u a := ⟨had, place, Await.isAboard_of_handshake handshake⟩
      obtain ⟨rfl, _⟩ := comes.alone orderly ashore flies
      exact absurd rfl other

theorem Moves.modest {id : Nat} (moves : Moves w w' id) (orderly : w.Orderly) (modest : w.Modest) :
    w'.Modest := by
  cases moves.sorts orderly with
  | idle same => rwa [same]
  | turns comes turn moved => exact modest.turns orderly comes turn moved
  | @quiet t _ _ _ _ moved _ quiet =>
    intro u a has place handshake
    rcases moved.has_cases has with ⟨p, goes, rfl⟩ | ⟨_, had⟩
    · exact absurd (goes.trans (congrArg some place)) (quiet.silent a)
    · have left := modest u a had place handshake
      exact left.congr (moved.log ▸ List.subset_append_left ..) (by rw [moved.session, quiet.token])
        (by rw [moved.session, quiet.phase]) (by rw [moved.session, quiet.store])

theorem Reachable.modest (reachable : w.Reachable) : w.Modest :=
  reachable.induction (fun _ _ _ _ _ has => nomatch has)
    fun _ action orderly => (step_moves orderly action).modest orderly

/-- The mark comes only from an answer that bears it. While a handshake waits neither record is
marked, unless the challenge came with the mark; in that case, and only then, both are. -/
theorem marked_by_answers (reachable : w.Reachable) :
    (∀ (action : Action) (token : SessionToken), Makes w (w.step action) token →
        token.verified = true →
        ∃ answer notes, (w.step action).log = w.log ++ answer :: notes ∧
          (Confirms (w.caller action) answer token ∨ Presumes (w.caller action) answer token)) ∧
      ∀ (t : Task) (a : Await), w.Has t → t.place = .asking a → a.isOf .handshake = true →
        ((∀ answer, .answered t.id .issue (.ok answer) ∈ w.log → answer.verified = false) →
          w.session.Unmarked) ∧
        (a.isChallenged = true → w.session.state.phase ≠ .unauthenticated →
          ∃ answer, .answered t.id .issue (.ok answer) ∈ w.log ∧
            LawfulStore.record w.session.store = some (Wire.encode w.session.state.token) ∧
            (w.session.state.token.verified = true ↔
              answer.verified = true ∧ answer.token.isSome = true)) := by
  have orderly := reachable.orderly
  refine ⟨fun action token makes verified => ?_, fun t a has place handshake => ?_⟩
  · exact (step_moves orderly action).marks orderly makes verified
  · have left := reachable.modest t a has place handshake
    refine ⟨left.unmarked handshake, fun challenged inTime => ?_⟩
    exact left.exact challenged inTime

/-- A challenge without the mark leaves none, and the answer to the signature does. -/
theorem marked_by_verification :
    let issued : SessionToken := { token := some "t", account := some "a", nonce := some "n" }
    let w := (ofSession (Session.create ⟨"", "", ""⟩ true (⟨none⟩ : MemoryStore))).steps
      [.start .handshake false, .answer 0 .account (.ok "a"), .answer 0 .issue (.ok issued)]
    let signed := w.steps
      [.answer 0 .signMessage (.ok ⟨true, some { message := "m", nonce := "n", signature := [] }⟩),
        .answer 0 .publicKey (.ok "k")]
    let checked := signed.step (.answer 0 .verify (.ok { verified := true }))
    w.session.Unmarked ∧ Makes signed checked { issued with verified := true } ∧
      ∃ answer notes, checked.log = signed.log ++ answer :: notes ∧
        (Confirms 0 answer { issued with verified := true } ∨
          Presumes 0 answer { issued with verified := true }) := by
  intro issued w signed checked
  have reachable : w.Reachable := ⟨_, _, _, _, rfl⟩
  let payload := SignMessagePayload.challenge (Wire.encode issued) "n"
  have has : w.Has ⟨0, .handshake, false, .asking (.signature payload)⟩ := rfl
  have log : w.log = [.started 0 .handshake, .boarded 0, .did 0 (.cleared true),
      .asked 0 .account, .answered 0 .account (.ok "a"), .asked 0 (.issue (.withAccount "a")),
      .answered 0 .issue (.ok issued), .did 0 (.saved issued true),
      .asked 0 (.signMessage payload {})] := rfl
  have made : checked.session.state.token = { issued with verified := true } ∧
      signed.session.state.token ≠ { issued with verified := true } := by
    decide +kernel
  have later : signed.Reachable := reachable.steps _
  refine ⟨((marked_by_answers reachable).2 _ _ has rfl rfl).1 fun answer heard => ?_, .inl made,
    (marked_by_answers later).1 _ _ (.inl made) rfl⟩
  have same : answer = issued := by simpa [log] using heard
  rw [same]

/-- So the mark does not wait for a signature: a challenge may come with it. -/
theorem not_only_by_signature :
    (¬∀ (w : World MemoryStore), w.Reachable → ∀ (action : Action) (token : SessionToken),
        Makes w (w.step action) token → token.verified = true →
        ∃ answer notes, (w.step action).log = w.log ++ answer :: notes ∧
          Confirms (w.caller action) answer token) ∧
      ¬∀ (w : World MemoryStore) (t : Task) (a : Await), w.Reachable → w.Has t →
        t.place = .asking a → a.isOf .handshake = true →
        (∀ n ∈ w.log, ∀ token, ¬Confirms t.id n token) → w.session.Unmarked := by
  let w := (ofSession (Session.create ⟨"", "", ""⟩ true (⟨none⟩ : MemoryStore))).steps
    [.start .handshake false, .answer 0 .account (.ok "a")]
  let issued : SessionToken :=
    { token := some "t", account := some "a", nonce := some "n", verified := true }
  let marked := w.step (.answer 0 .issue (.ok issued))
  have reachable : w.Reachable := ⟨_, _, _, _, rfl⟩
  have made : marked.session.state.token = issued ∧ w.session.state.token ≠ issued := by
    decide +kernel
  let isConfirmation : Note → Bool
    | .answered _ .status _ | .answered _ .verify _ => true
    | _ => false
  have unchecked : marked.log.all (!isConfirmation ·) = true := by decide +kernel
  have unconfirmed {id : Nat} {n : Note} {token : SessionToken} (heard : n ∈ marked.log) :
      ¬Confirms id n token := by
    have other := List.all_eq_true.mp unchecked _ heard
    rintro (_ | _) <;> exact Bool.false_ne_true other
  constructor
  · intro always
    obtain ⟨answer, notes, log, confirms⟩ := always w reachable _ issued (.inl made) rfl
    exact unconfirmed (by simp [marked, log]) confirms
  · intro always
    let payload := SignMessagePayload.challenge (Wire.encode issued) "n"
    have has : marked.Has ⟨0, .handshake, false, .asking (.signature payload)⟩ := rfl
    have unmarked := always marked _ _ (reachable.step _) has rfl rfl
      fun _ heard _ => unconfirmed heard
    exact absurd (made.1 ▸ unmarked.current) (by decide)

end World

end WalletSession
