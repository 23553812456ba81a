import WalletSession.Proofs.World.Dialogue
import WalletSession.Proofs.World.Returns

/-! A handshake from its first question to its last answer. What the call has asked and been told is
settled by where it waits, and from the challenge on the session holds the record that it has made of
the challenge, unless a reset has overtaken it. So a handshake that returns as verified has done all of
it, once and in order, and the record that it leaves is the one that was meant. -/
namespace WalletSession

/-- Somebody is asked, or answers. -/
def Note.isExchange : Note → Bool
  | .asked .. | .answered .. => true
  | _ => false

/-- What a call has asked and been told. -/
def exchange (id : Nat) (log : List Note) : List Note := (own id log).filter Note.isExchange

section Exchange

variable {id : Nat} {first second notes : List Note}

@[simp] theorem exchange_append :
    exchange id (first ++ second) = exchange id first ++ exchange id second := by
  simp [exchange]

theorem exchange_others (others : ∀ n ∈ notes, n.id ≠ id) : exchange id notes = [] :=
  filter_own_others others

theorem exchange_quiet (quiet : ∀ n ∈ notes, n.isExchange = false) : exchange id notes = [] :=
  filter_own_quiet quiet

theorem exchange_singleton {n : Note} (mine : n.id = id) :
    exchange id [n] = if n.isExchange then [n] else [] :=
  filter_own_singleton mine

@[simp] theorem exchange_dids (deeds : List Deed) : exchange id (deeds.map (.did id)) = [] := by
  apply exchange_quiet
  simp [Note.isExchange]

theorem not_isExchange_of_isFinal {n : Note} (final : n.isFinal = true) : n.isExchange = false := by
  cases n <;> first | rfl | contradiction

end Exchange

/-- The exchange of a handshake up to each of its answers. -/
def named (id : Nat) (account : String) : List Note :=
  [.asked id .account, .answered id .account (.ok account)]

def challenged (id : Nat) (account : String) (issued : SessionToken) : List Note :=
  named id account ++
    [.asked id (.issue (.withAccount account)), .answered id .issue (.ok issued)]

def signedFor (id : Nat) (account : String) (issued : SessionToken) (nonce : String)
    (signed : SignedMessage) : List Note :=
  challenged id account issued ++
    [.asked id (.signMessage (.challenge (Wire.encode issued) nonce) {}),
      .answered id .signMessage (.ok { success := true, result := some signed })]

def keyed (id : Nat) (account : String) (issued : SessionToken) (nonce : String)
    (signed : SignedMessage) (publicKey : String) : List Note :=
  signedFor id account issued nonce signed ++
    [.asked id .publicKey, .answered id .publicKey (.ok publicKey)]

/-- The exchange of a handshake up to each of its questions, and the record that it has had the session
keep by then. -/
inductive Ceremony (id : Nat) : SessionToken → Await → List Note → Prop
  | account {held : SessionToken} : Ceremony id held .account [.asked id .account]
  | issue {held : SessionToken} {account : String} :
      Ceremony id held (.issue (.withAccount account))
        (named id account ++ [.asked id (.issue (.withAccount account))])
  | signature {account nonce : String} {issued : SessionToken} (given : issued.nonce = some nonce) :
      Ceremony id ((SessionToken.withAccount account).merge issued)
        (.signature (.challenge (Wire.encode issued) nonce))
        (challenged id account issued ++
          [.asked id (.signMessage (.challenge (Wire.encode issued) nonce) {})])
  | publicKey {account nonce : String} {issued : SessionToken} {signed : SignedMessage}
      (given : issued.nonce = some nonce) :
      Ceremony id ((SessionToken.withAccount account).merge issued) (.publicKey signed)
        (signedFor id account issued nonce signed ++ [.asked id .publicKey])
  | verify {account nonce publicKey : String} {issued : SessionToken} {signed : SignedMessage}
      (given : issued.nonce = some nonce) :
      Ceremony id ((SessionToken.withAccount account).merge issued) (.verify { signed, publicKey })
        (keyed id account issued nonce signed publicKey ++ [.asked id (.verify { signed, publicKey })])

/-- The answer with which a call comes. -/
def Occasion.exchange (id : Nat) : Occasion → List Note
  | .answer a reply => [.answered id a.method reply]
  | .start | .flight => []

section Ceremony

variable {σ : Type} {s s' : Session σ} {id : Nat} {notes : List Note} {held : SessionToken}
  {a next : Await} {occasion : Occasion} {call : Call}

theorem Ceremony.aboard (ceremony : Ceremony id held a notes) : a.isAboard = true := by
  cases ceremony <;> rfl

/-- How far the handshake is at its last question, or that it has asked nothing yet. Unless it was
overtaken by a reset, the session holds its record. -/
def Session.Performs (s : Session σ) (id : Nat) (notes : List Note) : Option Await → Prop
  | some a => ∃ held, Ceremony id held a notes ∧
      (s.state.phase ≠ .unauthenticated → s.state.token = held)
  | none => notes = []

/-- Whoever leaves the session alone or resets it does not disturb the handshake. -/
theorem Session.Performs.undisturbed {last : Option Await} (performs : s.Performs id notes last)
    (kept : ∀ a ∈ last, a.isAboard = true → s'.state.phase = .unauthenticated ∨
      s'.state.phase = s.state.phase ∧ s'.state.token = s.state.token) :
    s'.Performs id notes last := by
  cases last with
  | none => exact performs
  | some a =>
    obtain ⟨held, ceremony, holds⟩ := performs
    refine ⟨held, ceremony, fun inTime => ?_⟩
    obtain ⟨phase, token⟩ := (kept a rfl ceremony.aboard).resolve_left inTime
    exact token.trans (holds (phase ▸ inTime))

variable [TokenStore σ]

/-- The next question is the next step of the handshake. -/
theorem Session.Performs.goesOn (performs : s.Performs id notes occasion.await?)
    (shakes : call = .handshake ∨ call = .handshakeOutcome)
    (turn : Session.Turn call s occasion (.ok (.stop (.wait next))) s') :
    s'.Performs id (notes ++ occasion.exchange id ++ [.asked id next.request]) (some next) := by
  have boards : call.boards = true := by rcases shakes with rfl | rfl <;> rfl
  cases turn with
  | asks asks => simpa [asks.outside] using Await.isAboard_of_boards asks.suits boards
  | logsOut only | setsOut only | fallsBack only => simp [only] at shakes
  | prompts =>
    obtain ⟨_, ceremony, _⟩ := performs
    cases ceremony
  | revalidates checks =>
    cases checks with
    | alone only => rcases shakes with rfl | rfl <;> cases only
    | connected | prompted =>
      obtain ⟨_, ceremony, _⟩ := performs
      cases ceremony
  | startsOver =>
    obtain rfl : notes = [] := performs
    exact ⟨_, .account, fun _ => rfl⟩
  | starts =>
    obtain ⟨_, ceremony, _⟩ := performs
    cases ceremony
    exact ⟨_, .issue, fun _ => rfl⟩
  | keepsChallenge phase given =>
    obtain ⟨_, ceremony, _⟩ := performs
    cases ceremony
    exact ⟨_, .signature given, fun _ => rfl⟩
  | signs =>
    obtain ⟨_, ceremony, holds⟩ := performs
    cases ceremony with
    | signature given => exact ⟨_, .publicKey given, holds⟩
  | submits phase =>
    obtain ⟨_, ceremony, holds⟩ := performs
    cases ceremony with
    | publicKey given => exact ⟨_, .verify given, fun _ => holds (by simp [phase])⟩

/-- A handshake tells that it is verified when the backend has taken its signature, and at no other
time. -/
theorem Session.Turn.verifies {result : Except AuthError Move}
    (turn : Session.Turn .handshakeOutcome s occasion result s')
    (fits : occasion.Fits .handshakeOutcome s.state.phase)
    (ended : result = .ok (.stop (.finish (.outcome .verified)))) :
    ∃ submission answer, occasion = .answer (.verify submission) (.ok answer) ∧
      s.state.phase = .pendingVerification ∧ (s.state.token.merge answer).verified = true ∧
      (TokenStore.save s.store (s.state.token.merge answer)).1 = .ok () ∧
      s' = s.confirmed (s.state.token.merge answer) := by
  cases turn with
  | returns ends => exact absurd ends.other.2 nofun
  | forgets _ no =>
    cases ended
    contradiction
  | lacksWallet only | fallsBackVainly only => contradiction
  | @confirms a reply token phase keeps saved =>
    cases keeps with
    | renewed => exact absurd fits.1 nofun
    | @accepted submission answer valid =>
      exact ⟨submission, answer, rfl, (Option.some.inj phase).symm, valid, saved, rfl⟩
  | _ => cases ended

end Ceremony

namespace Place

theorem eq_of_await? {place : Place} {a : Await} (asked : a ∈ place.await?) : place = .asking a := by
  cases place <;> simp_all [await?]

end Place

namespace World

variable {σ : Type} {w w' : World σ} {t : Task} {occasion : Occasion} {lock : Lock}
  {notes : List Note} {place : Option Place} {s : Session σ} {id : Nat}

/-- Every handshake is where its exchange has come to. -/
def Performing (w : World σ) : Prop :=
  ∀ t, w.Has t → t.call = .handshake ∨ t.call = .handshakeOutcome →
    w.session.Performs t.id (exchange t.id w.log) t.place.await?

/-- One call moves, and no handshake of another is disturbed. -/
theorem Performing.moved (performing : w.Performing) (moved : Moved w t lock place s notes w')
    (mine : ∀ n ∈ notes, n.id = t.id)
    (kept : ∀ u a, u.id ≠ t.id → w.Flies u a → s.state.phase = .unauthenticated ∨
      s.state.phase = w.session.state.phase ∧ s.state.token = w.session.state.token)
    (own : t.call = .handshake ∨ t.call = .handshakeOutcome → ∀ p, place = some p →
      s.Performs t.id (exchange t.id w'.log) p.await?) : w'.Performing := by
  intro u has only
  rw [moved.session]
  rcases moved.has_cases has with ⟨p, goes, rfl⟩ | ⟨other, had⟩
  · exact own only p goes
  · have unsaid : exchange u.id notes = [] :=
      exchange_others fun n member => mine n member ▸ Ne.symm other
    rw [moved.log, exchange_append, unsaid, List.append_nil]
    exact (performing u had only).undisturbed fun a asked aboard =>
      kept u a other ⟨had, Place.eq_of_await? asked, aboard⟩

variable [TokenStore σ]

/-- A handshake goes on from where its exchange has come to, and its coming adds the answer. -/
theorem Comes.performs (comes : Comes w t occasion lock notes) (orderly : w.Orderly)
    (performing : w.Performing) {call : Call} (only : t.call = call)
    (shakes : call = .handshake ∨ call = .handshakeOutcome := by simp) :
    w.session.Performs t.id (exchange t.id w.log) occasion.await? ∧
      exchange t.id notes = occasion.exchange t.id := by
  subst only
  induction comes with
  | fresh number =>
    refine ⟨exchange_others fun n member => ?_, exchange_singleton rfl⟩
    exact Nat.ne_of_lt (number ▸ orderly.noted member)
  | roused has place =>
    have performs := performing t has shakes
    rw [place] at performs
    exact ⟨performs, rfl⟩
  | answered has place =>
    have performs := performing t has shakes
    rw [place] at performs
    exact ⟨performs, exchange_singleton rfl⟩
  | boards comes turn free ih =>
    obtain ⟨performs, told⟩ := ih
    cases turn with
    | boards =>
      refine ⟨performs, ?_⟩
      rw [exchange_append, told]
      exact exchange_singleton rfl
    | ready =>
      obtain ⟨_, ceremony, _⟩ := performs
      cases ceremony
  | isCalled has place =>
    have performs := performing t has shakes
    rw [place] at performs
    exact ⟨performs, exchange_singleton rfl⟩

theorem Performing.turns {result : Except AuthError Move} (performing : w.Performing)
    (orderly : w.Orderly) (comes : Comes w t occasion lock notes)
    (turn : Session.Turn t.call w.session occasion result s)
    (moved : Moved w t lock (rest result) (settled s.rested t.call result)
      (notes ++ s.deeds.map (.did t.id) ++ closing t lock s.rested result) w') : w'.Performing := by
  refine performing.moved moved (fun n => (orderly.turns comes turn).mine) ?_ ?_
  · intro u a other flies
    simp only [settled_phase, settled_token, Session.rested_state]
    cases ashore : occasion.isAshore with
    | true =>
      rcases turn.ashore ashore with rfl | ⟨_, rfl⟩
      · exact .inr ⟨rfl, rfl⟩
      · exact .inl rfl
    | false =>
      -- The handshake holds the flight, so nobody else works on it.
      obtain ⟨rfl, _⟩ := comes.alone orderly ashore flies
      exact absurd rfl other
  · intro shakes p goes
    obtain ⟨performs, told⟩ := comes.performs orderly performing rfl shakes
    obtain ⟨next, rfl, rfl⟩ := rest_eq_some goes
    have asked : exchange t.id [.asked t.id next.request] = [.asked t.id next.request] :=
      exchange_singleton rfl
    have log : exchange t.id w'.log =
        exchange t.id w.log ++ occasion.exchange t.id ++ [.asked t.id next.request] := by
      rw [moved.log]
      simp [told, closing, asked]
    rw [log]
    exact (performs.goesOn shakes turn).undisturbed fun _ _ _ => .inr ⟨by simp, by simp⟩

theorem Moves.performing (moves : Moves w w' id) (orderly : w.Orderly) (performing : w.Performing) :
    w'.Performing := by
  cases moves with
  | idle same => rwa [same]
  | turns comes turn stops moved => exact performing.turns orderly comes turn moved
  | @queues t occasion notes comes turn moved =>
    refine performing.moved moved (fun n => comes.mine) (fun _ _ _ _ => .inr ⟨rfl, rfl⟩) ?_
    rintro shakes _ ⟨⟩
    obtain ⟨performs, told⟩ := comes.performs orderly performing rfl shakes
    rw [moved.log, exchange_append, told]
    cases turn with
    | boards => rwa [Occasion.exchange, List.append_nil]
    | ready =>
      obtain ⟨_, ceremony, _⟩ := performs
      cases ceremony
  | shares has place holds served moved =>
    exact performing.moved moved (by simp [Note.id]) (fun _ _ _ _ => .inr ⟨by simp, by simp⟩) (by simp)
  | waits number only moved =>
    refine performing.moved moved (by simp [Note.id]) (fun _ _ _ _ => .inr ⟨rfl, rfl⟩) ?_
    rintro (other | other) <;> cases only.symm.trans other
  | observes comes moved =>
    exact performing.moved moved (fun n => comes.mine_snoc rfl) (fun _ _ _ _ => .inr ⟨rfl, rfl⟩)
      (by simp)
  | drops has moved =>
    exact performing.moved moved (fun n member => (parting_final member).1)
      (fun _ _ _ _ => .inr ⟨rfl, rfl⟩) (by simp)

theorem Reachable.performing (reachable : w.Reachable) : w.Performing :=
  reachable.induction (fun _ _ _ _ has => nomatch has)
    fun _ action orderly => (step_moves orderly action).performing orderly

omit [TokenStore σ] in
theorem exchange_farewell (result : Except AuthError Value) :
    exchange t.id (farewell t lock s result) = [] :=
  exchange_quiet fun _ member => not_isExchange_of_isFinal (farewell_final member)

/-- A handshake that returns as verified has done everything: it has asked for an account, a challenge
for it, a signature of the challenge, a key, and a verification of both, each once and in this order;
and the session holds what the answers make together, verified and stored. -/
theorem verified_handshake_did_everything [LawfulStore σ] (reachable : w.Reachable) {action : Action}
    (log : (w.step action).log = w.log ++ notes)
    (started : .started id .handshakeOutcome ∈ (w.step action).log)
    (returned : .returned id (.ok (.outcome .verified)) ∈ notes) :
    ∃ (account nonce publicKey : String) (issued verified : SessionToken) (signed : SignedMessage),
      let token := ((SessionToken.withAccount account).merge issued).merge verified
      let state := (w.step action).session.state
      issued.nonce = some nonce ∧
      exchange id (w.step action).log =
        [.asked id .account, .answered id .account (.ok account),
          .asked id (.issue (.withAccount account)), .answered id .issue (.ok issued),
          .asked id (.signMessage (.challenge (Wire.encode issued) nonce) {}),
          .answered id .signMessage (.ok { success := true, result := some signed }),
          .asked id .publicKey, .answered id .publicKey (.ok publicKey),
          .asked id (.verify { signed, publicKey }), .answered id .verify (.ok verified)] ∧
      state.token = token ∧ token.verified = true ∧ token.isPresent = true ∧
      LawfulStore.record (w.step action).session.store = some (Wire.encode token) ∧
      state.phase = .verified ∧ state.connected = true := by
  have orderly := reachable.orderly
  obtain ⟨t, rfl, only, returns⟩ :=
    (step_moves orderly action).returns orderly reachable.registered log returned started
  have other : t.call.isStartup = false := by
    rw [only]
    rfl
  generalize same : Except.ok (Value.outcome .verified) = result at returns
  cases returns with
  | shares =>
    rw [Session.told_of_other _ _ other, only] at same
    cases same
  | observes _ _ observer => simp [only] at observer
  | @ends occasion lock notes value s comes turn moved =>
    rw [Session.told_of_other _ _ other] at same
    subst same
    have fits := comes.fits orderly
    obtain ⟨performs, told⟩ := comes.performs orderly reachable.performing only
    rw [only] at turn fits
    obtain ⟨submission, verified, rfl, phase, valid, saved, rfl⟩ := turn.verifies fits rfl
    obtain ⟨held, ceremony, holds⟩ := performs
    have token := holds (by simp [phase])
    generalize before : exchange t.id w.log = earlier at ceremony
    cases ceremony with
    | @verify account nonce publicKey issued signed given =>
      have session := moved.session.trans (Session.concluded_of_other _ _ other)
      rw [token] at valid saved session
      refine ⟨account, nonce, publicKey, issued, verified, signed, given, ?_, ?_, valid,
        SessionToken.isBacked_merge _ _ valid, ?_, ?_, ?_⟩
      · rw [moved.log]
        simp only [exchange_append, before, told, exchange_dids, exchange_farewell, List.append_nil]
        rfl
      · rw [session]
        rfl
      · rw [session]
        exact LawfulStore.saves saved
      · rw [session]
        rfl
      · rw [session]
        rfl

/-- A handshake is answered to the end while a check waits for its turn. -/
theorem verified_while_check_waits :
    let w : World MemoryStore := (ofSession (Session.create ⟨"", "", ""⟩ true ⟨none⟩)).steps
      [.start .handshakeOutcome false, .start .check false, .answer 0 .account (.ok "a"),
        .answer 0 .issue (.ok { token := some "t", account := some "a", nonce := some "n" }),
        .answer 0 .signMessage (.ok ⟨true, some { message := "m", nonce := "n", signature := [] }⟩),
        .answer 0 .publicKey (.ok "k")]
    let w' := w.step (.answer 0 .verify (.ok { verified := true }))
    let token : SessionToken :=
      { token := some "t", account := some "a", nonce := some "n", verified := true }
    .started 0 .handshakeOutcome ∈ w'.log ∧
      .returned 0 (.ok (.outcome .verified)) ∈ w'.log.drop w.log.length ∧
      (exchange 0 w'.log).length = 10 ∧ w'.session.state.token = token ∧
      LawfulStore.record w'.session.store = some (Wire.encode w'.session.state.token) ∧
      w'.session.state.connected = true := by
  intro w w' token
  have reachable : w.Reachable := ⟨_, _, _, _, rfl⟩
  have log : w'.log = w.log ++ w'.log.drop w.log.length := rfl
  have started : .started 0 .handshakeOutcome ∈ w'.log := List.mem_cons_self
  have returned : .returned 0 (.ok (.outcome .verified)) ∈ w'.log.drop w.log.length :=
    List.mem_of_getElem? (i := 3) rfl
  obtain ⟨_, _, _, _, _, _, _, exchanged, kept, _, _, stored, _, connected⟩ :=
    verified_handshake_did_everything reachable log started returned
  exact ⟨started, returned, by rw [exchanged]; rfl, rfl, kept ▸ stored, connected⟩

end World

end WalletSession
