import WalletSession.Proofs.World.Reconnect
import WalletSession.Proofs.World.Returns
import WalletSession.Proofs.World.Waiting

/-! When a call meets a phase that has no edge for it. Whoever waits after an edge of its own finds
the phase as it has left it, or a disconnect has reset the session since it boarded; nobody else
takes an edge under it. So, as long as no call is dropped, a flight begins where it can, and an edge
that is refused tells of a disconnect. -/
namespace WalletSession

variable {σ : Type}

/-- A disconnect resets the session here. -/
def Resets (notes : List Note) : Prop :=
  ∃ earlier id cleared later,
    notes = earlier ++ .started id .disconnect :: .did id (.cleared cleared) :: later

theorem Resets.append {notes : List Note} (resets : Resets notes) (more : List Note) :
    Resets (notes ++ more) := by
  obtain ⟨earlier, id, cleared, later, rfl⟩ := resets
  exact ⟨earlier, id, cleared, later ++ more, by simp⟩

theorem Resets.later {notes : List Note} (resets : Resets notes) (before : List Note) :
    Resets (before ++ notes) := by
  obtain ⟨earlier, id, cleared, later, rfl⟩ := resets
  exact ⟨before ++ earlier, id, cleared, later, by simp⟩

/-- The call is on a flight that it has begun, and this has happened since. -/
def Aloft (log : List Note) (id : Nat) (since : List Note) : Prop :=
  (∃ before, log = before ++ .boarded id :: since) ∧ ∀ connected, .landed id connected ∉ since

theorem Aloft.append {log since more : List Note} {id : Nat} (aloft : Aloft log id since)
    (unlanded : ∀ connected, .landed id connected ∉ more) : Aloft (log ++ more) id (since ++ more) := by
  obtain ⟨⟨before, rfl⟩, stays⟩ := aloft
  refine ⟨⟨before, by simp⟩, fun connected landed => ?_⟩
  exact (List.mem_append.mp landed).elim (stays connected) (unlanded connected)

/-- While a call was on its flight, a disconnect has reset the session. -/
def Interrupted (log : List Note) (id : Nat) : Prop := ∃ since, Aloft log id since ∧ Resets since

namespace Session

/-- Taking an edge for one's own work and taking it come to the same: the work is what was expected. -/
theorem perform_advance_of_follow (s : Session σ) (event : Event) (work : Effect)
    (fits : event.effect = work) :
    s.perform (advance event) =
      ((s.perform (follow event work fits)).1.map fun _ => work,
        (s.perform (follow event work fits)).2) := by
  unfold follow
  rw [perform_bind, perform_advance]
  cases accepted : transition s.state.phase event with
  | error e => rfl
  | ok step =>
    have expected : step.effect = work := (effect_of_transition accepted).trans fits
    simp [Except.map, expected]

variable [TokenStore σ] {s s' : Session σ} {call : Call} {occasion : Occasion}

/-- A call goes on to wait in a phase of its own with the edge to it, or has waited in it before. -/
theorem Turn.edge {a : Await} {own : Phase} (turn : Turn call s occasion (.ok (.stop (.wait a))) s')
    (edge : a.phase? = some own) :
    s'.state.phase = own ∨ s'.state.phase = s.state.phase ∧
      ∃ b reply, occasion = .answer b reply ∧ b.phase? = some own := by
  cases turn with
  | asks asks =>
    have outside := asks.outside
    simp [Await.isAboard_of_phase edge] at outside
  | logsOut _ next => rcases next with rfl | rfl <;> cases edge
  | setsOut | prompts | startsOver | fallsBack => cases edge
  | revalidates | starts | submits | keepsChallenge =>
    cases edge
    exact .inl rfl
  | signs => exact .inr ⟨rfl, _, _, rfl, edge⟩

end Session

namespace World

variable {w w' : World σ} {t u : Task} {occasion : Occasion} {lock : Lock} {notes : List Note}
  {a : Await}

/-- Who waits after an edge of its own was not overtaken, unless by a disconnect. -/
def Unswayed (w : World σ) : Prop :=
  ∀ t a, w.Flies t a → ∃ since, Aloft w.log t.id since ∧
    ∀ own ∈ a.phase?, w.session.state.phase = own ∨ Resets since

variable [TokenStore σ]

/-- Without the flight a call leaves the session alone, or is a disconnect that resets it. -/
theorem Comes.leaves_or_resets {result : Except AuthError Move} {s : Session σ} (orderly : w.Orderly)
    (comes : Comes w t occasion lock notes) (turn : Session.Turn t.call w.session occasion result s)
    (ashore : occasion.isAshore = true) :
    s = w.session ∨ s = w.session.forgotten ∧ Resets (notes ++ s.deeds.map (.did t.id)) := by
  by_cases leads : result = .ok .board
  · subst leads
    exact .inl turn.board
  rcases turn.stops_ashore ashore leads with ⟨only, rfl, rfl⟩ | ⟨rfl, _⟩
  · have started := comes.starts orderly (only ▸ rfl)
    refine .inr ⟨rfl, [], t.id, (TokenStore.clear w.session.store).1.isOk, [], ?_⟩
    rw [started, only, Session.forgotten_deeds, orderly.rested]
    rfl
  · exact .inl rfl

theorem Comes.phase_ashore {result : Except AuthError Move} {s : Session σ} (orderly : w.Orderly)
    (comes : Comes w t occasion lock notes) (turn : Session.Turn t.call w.session occasion result s)
    (ashore : occasion.isAshore = true) :
    s.state.phase = w.session.state.phase ∨ Resets (notes ++ s.deeds.map (.did t.id)) :=
  (comes.leaves_or_resets orderly turn ashore).imp (fun same => by rw [same]) And.right

theorem Moves.unswayed {id : Nat} (moves : Moves w w' id) (orderly : w.Orderly)
    (unswayed : w.Unswayed) : w'.Unswayed := by
  rintro u a ⟨has, asking, aboard⟩
  cases moves.sorts orderly with
  | idle same =>
    subst same
    exact unswayed _ _ ⟨has, asking, aboard⟩
  | @quiet t lock place s notes moved respects quiet =>
    rcases moved.has_cases has with ⟨p, goes, rfl⟩ | ⟨other, had⟩
    · exact absurd (goes.trans (congrArg some asking)) (quiet.silent a)
    · obtain ⟨since, aloft, phase⟩ := unswayed _ _ ⟨had, asking, aboard⟩
      refine ⟨since ++ notes, moved.log ▸ aloft.append fun _ landed => ?_, fun own edge => ?_⟩
      · exact other (respects.mine landed)
      · rw [moved.session, quiet.phase]
        exact (phase own edge).imp_right (.append · notes)
  | @turns t occasion lock notes result s comes turn moved =>
    have mine {n : Note} := (orderly.turns comes turn).mine (n := n)
    rcases moved.has_cases has with ⟨p, goes, rfl⟩ | ⟨other, had⟩
    · obtain ⟨b, rfl, rfl⟩ := rest_eq_some goes
      cases asking
      have unlanded (connected : Bool) : .landed t.id connected ∉
          notes ++ s.deeds.map (.did t.id) ++ closing t lock s.rested (.ok (.stop (.wait a))) :=
        fun landed => Option.some_ne_none _ (comes.landed landed).2.2
      rw [moved.session, moved.log]
      simp only [settled_phase, Session.rested_state]
      have holds : occasion.isAshore = false := by simpa [aboard] using turn.aboard
      cases occasion with
      | start => contradiction
      | flight =>
        obtain ⟨earlier, rfl⟩ := comes.boarding
        refine ⟨s.deeds.map (.did t.id) ++ [.asked t.id a.request],
          ⟨⟨w.log ++ earlier, by simp [closing]⟩, ?_⟩, fun own edge => ?_⟩
        · simp
        · rcases turn.edge edge with taken | ⟨_, _, _, ⟨⟩, _⟩
          exact .inl taken
      | answer b reply =>
        cases comes with
        | answered has' place =>
          have aboard : b.isAboard = true := by simpa [Occasion.isAshore] using holds
          obtain ⟨since, aloft, phase⟩ := unswayed _ _ ⟨has', place, aboard⟩
          refine ⟨_, aloft.append unlanded, fun own edge => ?_⟩
          rcases turn.edge edge with taken | ⟨same, _, _, ⟨⟩, before⟩
          · exact .inl taken
          · rw [same]
            exact (phase own before).imp_right (.append · _)
    · have flies : w.Flies u a := ⟨had, asking, aboard⟩
      obtain ⟨since, aloft, phase⟩ := unswayed _ _ flies
      refine ⟨_, moved.log ▸ aloft.append fun _ landed => other (mine landed), fun own edge => ?_⟩
      rw [moved.session]
      simp only [settled_phase, Session.rested_state]
      -- Who flies has the flight, so the other call works without it.
      have ashore : occasion.isAshore = true := by
        refine Bool.not_eq_false _ ▸ fun holds => other ?_
        rw [(comes.alone orderly holds flies).1]
      rcases comes.phase_ashore orderly turn ashore with same | resets
      · rw [same]
        exact (phase own edge).imp_right (.append · _)
      · exact .inr ((resets.append _).later since)

theorem Reachable.unswayed (reachable : w.Reachable) : w.Unswayed :=
  reachable.induction (fun _ _ _ _ _ flies => nomatch flies.1)
    fun _ action orderly => (step_moves orderly action).unswayed orderly

omit [TokenStore σ] in
/-- Nobody is left behind in a phase that is under way. -/
theorem Attended.rests (attended : w.Attended) (undropped : ∀ id, .dropped id ∉ w.log)
    (early : ∀ t a, w.Flies t a → a.phase? = none) :
    w.session.state.phase = .unauthenticated ∨ w.session.state.phase = .verified := by
  cases pending : w.session.state.phase.isPending with
  | true =>
    rcases attended pending with ⟨t, a, has, asking, edge⟩ | ⟨id, dropped⟩
    · simp [early t a ⟨has, asking, Await.isAboard_of_phase edge⟩] at edge
    · exact absurd dropped (undropped id)
  | false => cases phase : w.session.state.phase <;> simp_all [Phase.isPending]

/-- The error is one that the store, or somebody who was asked, has just answered with. -/
inductive Passes (s : Session σ) (id : Nat) (e : AuthError) (notes : List Note) : Prop
  | answered {method : Method} (answered : .answered id method (.error e) ∈ notes)
  | unsaved {token : SessionToken} (failed : (TokenStore.save s.store token).1 = .error e)
      (tried : .did id (.saved token false) ∈ notes)
  | uncleared (failed : (TokenStore.clear s.store).1 = .error e)
      (tried : .did id (.cleared false) ∈ notes)
  | unclearedAgain (failed : (TokenStore.clear (TokenStore.clear s.store).2).1 = .error e)
      (tried : .did id (.cleared false) ∈ notes)

/-- A call that may board fails for want of an edge only if it passes on an error, was overtaken, or
began its check where none can begin. -/
theorem Comes.misses {s : Session σ} {phase : Phase} {event : Event} {more : List Note}
    (orderly : w.Orderly) (comes : Comes w t occasion lock notes)
    (turn : Session.Turn t.call w.session occasion (.error (.invalidTransition phase event)) s)
    (boards : t.call.boards = true) :
    Passes w.session t.id (.invalidTransition phase event)
        (notes ++ s.deeds.map (.did t.id) ++ more) ∨
      (∃ a own, w.Flies t a ∧ a.phase? = some own ∧ w.session.state.phase ≠ own) ∨
      (∀ u a, w.Flies u a → a.phase? = none) ∧
        w.session.state.phase ≠ .unauthenticated ∧ w.session.state.phase ≠ .verified := by
  have tried {deed : Deed} (member : deed ∈ s.deeds) :
      .did t.id deed ∈ notes ++ s.deeds.map (.did t.id) ++ more :=
    List.mem_append_left _ (List.mem_append_right _ (List.mem_map_of_mem member))
  have answered {a : Await} {reply : Except AuthError a.Reply} (asked : occasion = .answer a reply)
      (told : reply = .error (.invalidTransition phase event)) :
      Passes w.session t.id (.invalidTransition phase event)
        (notes ++ s.deeds.map (.did t.id) ++ more) := by
    subst asked told
    cases comes with
    | answered => exact .answered List.mem_cons_self
  have fails {r : Except AuthError Unit} {e : AuthError} (failed : r = .error e) : r.isOk = false := by
    rw [failed]
    rfl
  cases turn with
  | fails ends => simp [ends.other] at boards
  | isRefused _ _ told => exact .inl (answered rfl told)
  | isUnanswered => exact .inl (answered rfl rfl)
  | givesUp _ _ told => exact .inl (answered rfl (told.resolve_right nofun))
  | forgetsFailing _ kept => exact .inl (.uncleared kept (tried (by simp [fails kept])))
  | fallsBackFailing _ _ kept =>
    rw [Session.forgotten_store] at kept
    exact .inl (.unclearedAgain kept (tried (by simp [fails kept])))
  | cannotKeep _ _ unsaved =>
    exact .inl (.unsaved unsaved (tried (by simp [fails unsaved])))
  | @overtaken a reply _ edge reset =>
    obtain ⟨own, edge⟩ := Option.isSome_iff_exists.mp edge
    cases comes with
    | answered has place =>
      refine .inr (.inl ⟨a, own, ⟨has, place, Await.isAboard_of_phase edge⟩, edge, ?_⟩)
      exact fun same => Await.ne_unauthenticated edge (same.symm.trans reset)
  | cannotCheck checks present stranded =>
    refine .inr (.inr ⟨fun u a flies => ?_, stranded⟩)
    obtain ⟨_, reply, rfl⟩ := comes.alone orderly checks.aboard flies
    cases checks <;> rfl

/-- As long as no call is dropped, the phase is that of a session at rest whenever the flight is free,
and a call that boards fails for want of an edge only if it passes on an error, or a disconnect has
reset the session during its flight. An edge that is taken calls for the work that is done then. -/
theorem edges_fail_only_when_interrupted (reachable : w.Reachable)
    (undropped : ∀ id, .dropped id ∉ w.log) :
    (w.flight.lock.isFree = true →
        w.session.state.phase = .unauthenticated ∨ w.session.state.phase = .verified) ∧
      (∀ (action : Action) (notes : List Note) (id : Nat) (call : Call) (phase : Phase)
          (event : Event), (w.step action).log = w.log ++ notes →
        .returned id (.error (.invalidTransition phase event)) ∈ notes →
        .started id call ∈ (w.step action).log → call.boards = true →
        Passes w.session id (.invalidTransition phase event) notes ∨ Interrupted w.log id) ∧
      ∀ (s : Session σ) (event : Event) (work : Effect) (fits : event.effect = work),
        s.perform (Session.advance event) =
          ((s.perform (Session.follow event work fits)).1.map fun _ => work,
            (s.perform (Session.follow event work fits)).2) := by
  have orderly := reachable.orderly
  have rests := reachable.attended.rests undropped
  refine ⟨fun free => ?_, ?_, Session.perform_advance_of_follow⟩
  · refine rests fun t a flies => ?_
    simp [Lock.isFree, orderly.aboard flies.1 flies.2.1 flies.2.2] at free
  · intro action notes id call phase event log returned started boards
    obtain ⟨t, rfl, rfl, returns⟩ :=
      (step_moves orderly action).returns orderly reachable.registered log returned started
    have other := Call.other_of_boards boards
    generalize told : Except.error (AuthError.invalidTransition phase event) = result at returns
    cases returns with
    | ends comes turn moved =>
      rw [Session.told_of_other _ _ other] at told
      subst told
      rcases comes.misses orderly turn boards with passes | ⟨a, own, flies, edge, swayed⟩ |
        ⟨early, stranded⟩
      · exact .inl passes
      · obtain ⟨since, aloft, phase⟩ := reachable.unswayed t a flies
        exact .inr ⟨since, aloft, (phase own edge).resolve_left swayed⟩
      · exact absurd (rests early) (not_or.mpr stranded)
    | shares =>
      rw [Session.told_of_other _ _ other] at told
      cases told
    | observes _ _ only => simp [only, Call.isStartup] at other

/-- A handshake is at the backend when a disconnect begins. -/
def disturbed : World MemoryStore :=
  (ofSession (Session.create ⟨"", "", ""⟩ true (⟨none⟩ : MemoryStore))).steps
    [.start .handshake false, .answer 0 .account (.ok "a"), .start .disconnect false]

/-- The backend issues a nonce, and the handshake fails for want of an edge: because of the
disconnect, since nobody answers with an error. -/
theorem interrupted_at_issue :
    let token : SessionToken := { token := some "t", account := some "a", nonce := some "n" }
    let action : Action := .answer 0 .issue (.ok token)
    disturbed.Reachable ∧ (∀ id, .dropped id ∉ disturbed.log) ∧
      (disturbed.step action).log = disturbed.log ++ [.answered 0 .issue (.ok token), .landed 0 false,
        .returned 0 (.error (.invalidTransition .unauthenticated .nonceIssued))] ∧
      .started 0 .handshake ∈ (disturbed.step action).log ∧ Interrupted disturbed.log 0 := by
  intro token action
  have reachable : disturbed.Reachable := ⟨_, _, _, _, rfl⟩
  have undropped (id : Nat) : .dropped id ∉ disturbed.log := by
    have log : disturbed.log = [.started 0 .handshake, .boarded 0, .did 0 (.cleared true),
      .asked 0 .account, .answered 0 .account (.ok "a"), .asked 0 (.issue (.withAccount "a")),
      .started 1 .disconnect, .did 1 (.cleared true), .asked 1 .disconnect] := rfl
    simp [log]
  have log : (disturbed.step action).log = disturbed.log ++ [.answered 0 .issue (.ok token),
    .landed 0 false, .returned 0 (.error (.invalidTransition .unauthenticated .nonceIssued))] := rfl
  have started : .started 0 .handshake ∈ (disturbed.step action).log :=
    List.mem_of_getElem? (i := 0) rfl
  refine ⟨reachable, undropped, log, started, ?_⟩
  rcases (edges_fail_only_when_interrupted reachable undropped).2.1 action _ 0 .handshake
    .unauthenticated .nonceIssued log (by simp) started rfl with passes | interrupted
  · cases passes with
    | answered told =>
      simp only [List.mem_cons, Note.answered.injEq, true_and, reduceCtorEq, List.not_mem_nil,
        or_false] at told
      obtain ⟨rfl, same⟩ := told
      cases eq_of_heq same
    | unsaved _ tried | uncleared _ tried | unclearedAgain _ tried => simp at tried
  · exact interrupted

end World

end WalletSession
