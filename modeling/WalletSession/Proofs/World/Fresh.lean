import WalletSession.Proofs.World.Muted
import WalletSession.Store.Memory

/-! No stale answer survives a disconnect. After a reset the session makes records only of answers to
questions that were asked after it, and a handshake that began before it never gets to ask for a
verification. -/
namespace WalletSession

variable {σ : Type} [TokenStore σ]

/-- The call asked, and nothing has happened to it since. -/
def Awaits (log : List Note) (id : Nat) (request : Request) : Prop :=
  ∃ before since, log = before ++ .asked id request :: since ∧ ∀ n ∈ since, n.id ≠ id

/-- The call asked, and this is the answer that it got to its question. -/
def Hears (log : List Note) (id : Nat) (method : Method) (answer : method.Reply) : Prop :=
  ∃ before request since after,
    log = before ++ .asked id request :: since ++ .answered id method (.ok answer) :: after ∧
      request.method = method ∧ ∀ n ∈ since, n.id ≠ id

/-- A record that owes nothing to answers but those to the questions of this history. -/
inductive Fresh (log : List Note) : SessionToken → Prop
  | empty : Fresh log {}
  | draft (account : String) : Fresh log (.withAccount account)
  | issued {id : Nat} {draft answer : SessionToken} (fresh : Fresh log draft)
      (hears : Hears log id .issue answer) : Fresh log (draft.merge answer)
  | renewed {id : Nat} {current answer : SessionToken} (fresh : Fresh log current)
      (hears : Hears log id .status answer) : Fresh log (Session.revalidated current answer)
  | verified {id : Nat} {held answer : SessionToken} (fresh : Fresh log held)
      (hears : Hears log id .verify answer) : Fresh log (held.merge answer)

section Histories

variable {log notes : List Note} {id : Nat} {request : Request} {token : SessionToken}

theorem Awaits.append (awaits : Awaits log id request) (others : ∀ n ∈ notes, n.id ≠ id) :
    Awaits (log ++ notes) id request := by
  obtain ⟨before, since, rfl, quiet⟩ := awaits
  refine ⟨before, since ++ notes, by simp, fun n member => ?_⟩
  exact (List.mem_append.mp member).elim (quiet n) (others n)

theorem Awaits.mem (awaits : Awaits log id request) : .asked id request ∈ log := by
  obtain ⟨before, since, rfl, _⟩ := awaits
  simp

theorem Awaits.hears (awaits : Awaits log id request) (answer : request.method.Reply)
    (notes : List Note) :
    Hears (log ++ .answered id request.method (.ok answer) :: notes) id request.method answer := by
  obtain ⟨before, since, rfl, quiet⟩ := awaits
  exact ⟨before, request, since, notes, by simp, rfl, quiet⟩

theorem Hears.append {method : Method} {answer : method.Reply} (hears : Hears log id method answer)
    (notes : List Note) : Hears (log ++ notes) id method answer := by
  obtain ⟨before, request, since, after, rfl, same, quiet⟩ := hears
  exact ⟨before, request, since, after ++ notes, by simp, same, quiet⟩

theorem Fresh.append (fresh : Fresh log token) (notes : List Note) : Fresh (log ++ notes) token := by
  induction fresh with
  | empty => exact .empty
  | draft account => exact .draft account
  | issued _ hears ih => exact .issued ih (hears.append notes)
  | renewed _ hears ih => exact .renewed ih (hears.append notes)
  | verified _ hears ih => exact .verified ih (hears.append notes)

end Histories

namespace Await

/-- The record that a call holds on to while it waits. -/
def record? : Await → Option SessionToken
  | .status current => some current
  | .issue draft => some draft
  | _ => none

end Await

namespace Session

theorem Keeps.fresh {log notes : List Note} {held token : SessionToken} {a : Await} {id : Nat}
    {reply : Except AuthError a.Reply} {phase : Phase} (keeps : Keeps held a reply token phase)
    (awaits : Awaits log id a.request) (fresh : Fresh log held)
    (own : ∀ record ∈ a.record?, Fresh log record) :
    Fresh (log ++ .answered id a.method reply :: notes) token := by
  cases keeps with
  | challenge => exact .issued ((own _ rfl).append _) (awaits.hears _ notes)
  | renewed => exact .renewed ((own _ rfl).append _) (awaits.hears _ notes)
  | accepted | rejected => exact .verified (fresh.append _) (awaits.hears _ notes)

variable {s s' : Session σ} {call : Call} {occasion : Occasion} {result : Except AuthError Move}

/-- A stretch keeps no other record than one that an answer in time has given. -/
theorem Turn.records (turn : Turn call s occasion result s') (rested : s.deeds = []) :
    ((s'.state.token = s.state.token ∨ s'.state.token = {}) ∧
        ∀ token saved, .saved token saved ∉ s'.deeds) ∨
      ∃ a reply token phase, occasion = .answer a reply ∧ a.phase? = some s.state.phase ∧
        Keeps s.state.token a reply token phase ∧
        (∀ other saved, .saved other saved ∈ s'.deeds → other = token) ∧
        (s'.state.token = token ∨ s'.state.token = s.state.token) := by
  cases turn with
  | boards | ready | asks | isUnready | returns | fails | setsOut | lacksWallet | prompts | isRefused
  | cannotCheck | revalidates | starts | overtaken | signs | submits | givesUp | isUnanswered =>
    exact .inl ⟨.inl rfl, by simp [rested]⟩
  | logsOut | forgetsFailing | forgets | startsOver | fallsBackFailing | fallsBackVainly
  | fallsBack => exact .inl ⟨.inr rfl, by simp [rested]⟩
  | keepsChallenge phase given =>
    exact .inr ⟨_, _, _, _, rfl, congrArg some phase.symm, .challenge given, by simp [rested],
      .inl rfl⟩
  | confirms edge keeps => exact .inr ⟨_, _, _, _, rfl, edge, keeps, by simp [rested], .inl rfl⟩
  | isRejected phase keeps =>
    exact .inr ⟨_, _, _, _, rfl, congrArg some phase.symm, keeps, by simp [rested], .inl rfl⟩
  | cannotKeep edge keeps =>
    exact .inr ⟨_, _, _, _, rfl, edge, keeps, by simp [rested], .inr rfl⟩

theorem Turn.takes {a : Await} (turn : Turn call s occasion (.ok (.stop (.wait a))) s')
    {record : SessionToken} (taken : record ∈ a.record?) :
    record = s.state.token ∨ ∃ account, record = .withAccount account := by
  cases turn with
  | asks asks => cases asks <;> cases taken
  | logsOut _ next => rcases next with rfl | rfl <;> cases taken
  | revalidates => exact .inl (Option.some.inj taken).symm
  | starts => exact .inr ⟨_, (Option.some.inj taken).symm⟩
  | setsOut | prompts | startsOver | fallsBack | signs | submits | keepsChallenge => cases taken

end Session

namespace World

variable {w w' : World σ} {t : Task} {id : Nat} {occasion : Occasion} {lock : Lock}
  {notes after : List Note}

/-- What holds since a reset, of which this is the history. -/
structure Cleared (w : World σ) (after : List Note) : Prop where
  token : Fresh after w.session.state.token
  saved {id : Nat} {token : SessionToken} {saved : Bool}
    (member : .did id (.saved token saved) ∈ after) : Fresh after token
  asking {t : Task} (has : w.Has t) {a : Await} (place : t.place = .asking a)
    (edge : a.phase?.isSome = true) :
    w.session.state.phase = .unauthenticated ∨
      Awaits after t.id a.request ∧ ∀ record ∈ a.record?, Fresh after record

omit [TokenStore σ] in
theorem Cleared.moved {place : Option Place} {s : Session σ} (cleared : Cleared w after)
    (orderly : w.Orderly) (moved : Moved w t lock place s notes w')
    (respects : Respects w t lock place s notes) (token : Fresh (after ++ notes) s.state.token)
    (saved : ∀ id token saved, .did id (.saved token saved) ∈ notes → Fresh (after ++ notes) token)
    (own : ∀ a, place = some (.asking a) → Awaits (after ++ notes) t.id a.request ∧
      ∀ record ∈ a.record?, Fresh (after ++ notes) record) : Cleared w' (after ++ notes) where
  token := by rwa [moved.session]
  saved {id token ok} member := by
    rcases List.mem_append.mp member with before | now
    · exact (cleared.saved before).append notes
    · exact saved id token ok now
  asking {u} has {a} place edge := by
    rw [moved.session]
    rcases moved.has_cases has with ⟨p, goes, rfl⟩ | ⟨other, had⟩
    · cases place
      exact .inr (own a goes)
    · rcases orderly.phase_other respects had other place edge with kept | reset
      · rw [kept]
        refine (cleared.asking had place edge).imp_right fun ⟨awaits, fresh⟩ => ⟨?_, ?_⟩
        · exact awaits.append fun n member => respects.mine member ▸ Ne.symm other
        · exact fun record taken => (fresh record taken).append notes
      · exact .inl reset

/-- What a turn keeps is fresh, because the answer that it was made of was asked for since. -/
theorem Cleared.fresh {result : Except AuthError Move} {s : Session σ} (cleared : Cleared w after)
    (orderly : w.Orderly) (comes : Comes w t occasion lock notes)
    (turn : Session.Turn t.call w.session occasion result s) (more : List Note) :
    Fresh (after ++ (notes ++ more)) s.state.token ∧
      ∀ token saved, .saved token saved ∈ s.deeds → Fresh (after ++ (notes ++ more)) token := by
  have held := cleared.token.append (notes ++ more)
  rcases turn.records orderly.rested with
    ⟨same, unsaved⟩ | ⟨a, reply, token, phase, rfl, edge, keeps, only, same⟩
  · refine ⟨?_, fun token saved member => absurd member (unsaved token saved)⟩
    rcases same with same | same <;> rw [same]
    · exact held
    · exact .empty
  · cases comes with
    | answered has place _ =>
      obtain ⟨awaits, own⟩ := (cleared.asking has place (by simp [edge])).resolve_left
        (Await.ne_unauthenticated edge)
      have fresh : Fresh (after ++ .answered t.id a.method reply :: more) token :=
        keeps.fresh awaits cleared.token own
      refine ⟨?_, fun other saved member => only other saved member ▸ fresh⟩
      rcases same with same | same <;> rw [same]
      · exact fresh
      · exact held

theorem Cleared.turns {result : Except AuthError Move} {s : Session σ} (cleared : Cleared w after)
    (orderly : w.Orderly) (comes : Comes w t occasion lock notes)
    (turn : Session.Turn t.call w.session occasion result s)
    (moved : Moved w t lock (rest result) (settled s.rested t.call result)
      (notes ++ s.deeds.map (.did t.id) ++ closing t lock s.rested result) w') :
    Cleared w' (after ++ (notes ++ s.deeds.map (.did t.id) ++ closing t lock s.rested result)) := by
  have fresh := cleared.fresh orderly comes turn
    (s.deeds.map (.did t.id) ++ closing t lock s.rested result)
  rw [← List.append_assoc notes] at fresh
  refine cleared.moved orderly moved (orderly.turns comes turn) ?_ ?_ ?_
  · rw [settled_token, Session.rested_state]
    exact fresh.1
  · intro id token saved member
    simp only [List.mem_append, List.mem_map] at member
    rcases member with (noted | ⟨deed, member, same⟩) | closed
    · exact absurd noted (comes.undone _ _)
    · cases same
      exact fresh.2 token saved member
    · exact absurd closed (closing_undone _ _ _ _)
  · intro a goes
    obtain ⟨_, rfl, same⟩ := rest_eq_some goes
    cases same
    refine ⟨⟨after ++ (notes ++ s.deeds.map (.did t.id)), [], by simp [closing],
      fun _ member => absurd member List.not_mem_nil⟩, ?_⟩
    intro record taken
    rcases turn.takes taken with rfl | ⟨account, rfl⟩
    · exact cleared.token.append _
    · exact .draft account

theorem Moves.cleared (moves : Moves w w' id) (orderly : w.Orderly) (cleared : Cleared w after) :
    ∃ notes, w'.log = w.log ++ notes ∧ Cleared w' (after ++ notes) := by
  cases moves.sorts orderly with
  | idle same =>
    subst same
    exact ⟨[], by simp, by simpa using cleared⟩
  | turns comes turn moved => exact ⟨_, moved.log, cleared.turns orderly comes turn moved⟩
  | @quiet t _ _ _ notes moved respects quiet =>
    refine ⟨notes, moved.log, cleared.moved orderly moved respects ?_ ?_ ?_⟩
    · exact quiet.token ▸ cleared.token.append notes
    · exact fun id _ _ member => absurd member (quiet.undone id _)
    · exact fun a goes => absurd goes (quiet.silent a)

/-- A handshake that has started is over, or still waits in the middle. -/
def Shaking (w : World σ) : Prop :=
  ∀ id draft, .asked id (.issue draft) ∈ w.log → ∀ t, w.Has t → t.id = id →
    ∃ a, t.place = .asking a ∧ a.shakes = true

theorem Shaking.turns {result : Except AuthError Move} {s : Session σ} (shaking : Shaking w)
    (orderly : w.Orderly) (comes : Comes w t occasion lock notes)
    (turn : Session.Turn t.call w.session occasion result s)
    (moved : Moved w t lock (rest result) (settled s.rested t.call result)
      (notes ++ s.deeds.map (.did t.id) ++ closing t lock s.rested result) w') :
    Shaking w' := by
  rintro id draft asked u has rfl
  rw [moved.log, List.mem_append] at asked
  rcases moved.has_cases has with ⟨p, goes, rfl⟩ | ⟨other, had⟩
  · obtain ⟨next, rfl, rfl⟩ := rest_eq_some goes
    refine ⟨next, rfl, ?_⟩
    rcases asked with before | now
    · have had : w.Has t := comes.known.resolve_left (Nat.ne_of_lt (orderly.noted before))
      obtain ⟨a, place, shakes⟩ := shaking _ draft before t had rfl
      have edge := (Bool.and_eq_true_iff.mp shakes).1
      obtain ⟨reply, rfl, _⟩ := comes.answers orderly had place (Await.isAboard_of_edge edge)
      exact turn.shakes shakes
    · simp only [List.mem_append, List.mem_map, reduceCtorEq, and_false, exists_false, or_false]
        at now
      rcases now with noted | closed
      · exact absurd noted (comes.unasked _ _)
      · have asks := List.mem_singleton.mp closed
        exact Await.shakes_of_issue (Note.asked.inj asks).2.symm
  · refine shaking _ draft (asked.resolve_right fun now => other ?_) u had rfl
    exact (orderly.turns comes turn).mine now

theorem Moves.shaking (moves : Moves w w' id) (orderly : w.Orderly) (shaking : Shaking w) :
    Shaking w' := by
  cases moves.sorts orderly with
  | idle same => rwa [same]
  | turns comes turn moved => exact shaking.turns orderly comes turn moved
  | @quiet t _ _ _ _ moved respects quiet =>
    rintro id draft asked u has rfl
    rw [moved.log, List.mem_append] at asked
    have before := asked.resolve_right (quiet.unasked _ _)
    rcases moved.has_cases has with ⟨p, goes, rfl⟩ | ⟨_, had⟩
    · have had := quiet.known.resolve_left (Nat.ne_of_lt (orderly.noted before))
      obtain ⟨a, place, shakes⟩ := shaking _ draft before t had rfl
      have edge := (Bool.and_eq_true_iff.mp shakes).1
      have holds := orderly.aboard had place (Await.isAboard_of_edge edge)
      exact absurd (Lock.mem_line.mpr (.inl holds)) (quiet.ashore (by simp [goes]))
    · exact shaking _ draft before u had rfl

theorem Reachable.shaking (reachable : w.Reachable) : Shaking w :=
  reachable.induction (fun _ _ _ => nofun)
    (fun _ action orderly => (step_moves orderly action).shaking orderly)

theorem Cleared.steps (cleared : Cleared w after) (orderly : w.Orderly) (actions : List Action) :
    ∃ later, (w.steps actions).log = w.log ++ later ∧ Cleared (w.steps actions) (after ++ later) := by
  induction actions generalizing w after with
  | nil => exact ⟨[], by simp [World.steps], by simpa [World.steps] using cleared⟩
  | cons action actions ih =>
    obtain ⟨notes, log, cleared⟩ := (step_moves orderly action).cleared orderly cleared
    obtain ⟨later, log', cleared⟩ := ih cleared (orderly.step action)
    refine ⟨notes ++ later, ?_, ?_⟩
    · rw [steps_cons, log', log, List.append_assoc]
    · rwa [steps_cons, ← List.append_assoc]

theorem Orderly.clears (orderly : w.Orderly) (publishes : Bool) :
    ∃ notes, (w.step (.start .disconnect publishes)).log = w.log ++ notes ∧
      Cleared (w.step (.start .disconnect publishes)) [] := by
  obtain ⟨t, a, cleared, fresh, outside, moved⟩ := orderly.disconnects publishes
  refine ⟨_, moved.log, ?_, fun member => absurd member List.not_mem_nil, ?_⟩
  · rw [moved.session]
    exact .empty
  · intro u _ a _ _
    rw [moved.session]
    exact .inl rfl

/-- An answer to a question that was not asked since finds the reset, and leaves no trace. -/
theorem Cleared.inert (cleared : Cleared w after) (orderly : w.Orderly) {t : Task} (has : w.Has t)
    {a : Await} (place : t.place = .asking a) (edge : a.phase?.isSome = true)
    (stale : .asked t.id a.request ∉ after) (reply : Except AuthError a.Reply) :
    ∃ notes, Leaves w notes (w.step (.answer t.id a.method reply)) := by
  have reset := (cleared.asking has place edge).resolve_right fun asked => stale asked.1.mem
  have muted : w.Muted t.id :=
    ⟨orderly.number has, fun had mine => ⟨reset, a, had.unique has mine ▸ place, edge⟩⟩
  exact ((step_moves orderly (.answer t.id a.method reply)).muted orderly muted).2

/-- No stale answer survives a disconnect. -/
theorem no_stale_answer (reachable : w.Reachable) (publishes : Bool) (actions : List Action) :
    let reset := w.step (.start .disconnect publishes)
    let now := reset.steps actions
    ∃ after, now.log = reset.log ++ after ∧
      Fresh after now.session.state.token ∧
      (∀ id token saved, .did id (.saved token saved) ∈ after → Fresh after token) ∧
      (∀ t a, now.Has t → t.place = .asking a → a.phase?.isSome = true →
        .asked t.id a.request ∉ after → ∀ reply : Except AuthError a.Reply,
          ∃ notes, Leaves now notes (now.step (.answer t.id a.method reply))) ∧
      ∀ id draft submission, .asked id (.issue draft) ∈ w.log →
        .asked id (.verify submission) ∉ after := by
  intro reset now
  have orderly := reachable.orderly
  have orderlyReset : reset.Orderly := orderly.step _
  obtain ⟨_, _, cleared⟩ := orderly.clears publishes
  obtain ⟨after, log, cleared⟩ := cleared.steps orderlyReset actions
  refine ⟨after, log, cleared.token, fun _ _ _ => cleared.saved, ?_, ?_⟩
  · intro t a has place edge stale reply
    exact cleared.inert (orderlyReset.steps actions) has place edge stale reply
  · intro id draft submission asked
    have muted : reset.Muted id := by
      refine orderly.mutes (orderly.noted asked) (fun t has mine => ?_) publishes
      obtain ⟨a, place, shakes⟩ := reachable.shaking id draft asked t has mine
      exact ⟨a, place, (Bool.and_eq_true_iff.mp shakes).1⟩
    obtain ⟨_, later, log', _, unsent⟩ := muted.steps orderlyReset actions
    have same : after = later := List.append_cancel_left (log.symm.trans log')
    exact same ▸ unsent submission

/-- A handshake that a disconnect overtakes at the signing prompt never asks for a verification. -/
theorem no_verification_after_disconnect :
    let w := (ofSession (Session.create ⟨"", "", ""⟩ true (⟨none⟩ : MemoryStore))).steps
      [.start .handshake false, .answer 0 .account (.ok "a"),
        .answer 0 .issue (.ok { token := some "t", account := some "a", nonce := some "n" })]
    let reset := w.step (.start .disconnect false)
    let now := reset.steps
      [.answer 0 .signMessage (.ok ⟨true, some { message := "m", nonce := "n", signature := [] }⟩),
        .answer 0 .publicKey (.ok "k")]
    ∃ after, now.log = reset.log ++ after ∧ Fresh after now.session.state.token ∧
      ∀ submission, .asked 0 (.verify submission) ∉ after := by
  intro w reset now
  have reachable : w.Reachable := ⟨_, _, _, _, rfl⟩
  have asked : Note.asked 0 (.issue (.withAccount "a")) ∈ w.log := List.mem_of_getElem? (i := 5) rfl
  obtain ⟨after, log, fresh, _, _, unsent⟩ := no_stale_answer reachable false _
  exact ⟨after, log, fresh, fun submission => unsent 0 _ submission asked⟩

end World

end WalletSession
