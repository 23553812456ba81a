import WalletSession.Proofs.Session.Reports
import WalletSession.Proofs.World.Interrupted
import WalletSession.Proofs.World.Refused
import WalletSession.Proofs.World.Restart

/-! What a call tells of those who fail it. A check, a connect or a handshake returns the error of the
wallet, of the backend or of the store as it is. The one exception is a check that a disconnect has
reset while it waited for the backend: it is to give up a phase that is no more, and tells of that. -/
namespace WalletSession

variable {σ : Type}

/-- A disconnect has reset the session since the call asked what it waits for. -/
def Overtaken (log : List Note) (id : Nat) : Prop :=
  ∃ before request since, log = before ++ .asked id request :: since ∧
    (∀ other, .asked id other ∉ since) ∧ Resets since

/-- The call returns this and nothing else. -/
def ReturnsOnly (notes : List Note) (id : Nat) (result : Except AuthError Value) : Prop :=
  ∀ other, .returned id other ∈ notes ↔ other = result

section Log

variable {log since : List Note} {id : Nat}

theorem Resets.did (resets : Resets since) : ∃ other deed, .did other deed ∈ since := by
  obtain ⟨earlier, other, cleared, later, rfl⟩ := resets
  exact ⟨other, .cleared cleared, by simp⟩

/-- What has happened since the call asked last is one list. -/
theorem since_unique {first second : List Note} {x y : Note} {before before' : List Note}
    (same : before ++ x :: first = before' ++ y :: second) (later : x ∉ second) (later' : y ∉ first) :
    first = second := by
  rcases List.append_eq_append_iff.mp same with ⟨more, rfl, rest⟩ | ⟨more, rfl, rest⟩
  · cases more with
    | nil => exact (List.cons.inj rest).2
    | cons z more =>
      have member : y ∈ first := by simp [(List.cons.inj rest).2]
      contradiction
  · cases more with
    | nil => exact (List.cons.inj rest).2.symm
    | cons z more =>
      have member : x ∈ second := by simp [(List.cons.inj rest).2]
      contradiction

theorem overtaken_iff {before : List Note} {request : Request}
    (split : log = before ++ .asked id request :: since) (last : ∀ other, .asked id other ∉ since) :
    Overtaken log id ↔ Resets since := by
  constructor
  · rintro ⟨before', request', since', split', last', resets⟩
    rwa [since_unique (split.symm.trans split') (last' _) (last _)]
  · exact fun resets => ⟨before, request, since, split, last, resets⟩

end Log

namespace World

variable {w w' : World σ} {t : Task} {occasion : Occasion} {lock : Lock} {notes : List Note}
  {id : Nat}

/-- Who waits to hear of its record is in its phase, and the store was left alone since it asked, or a
disconnect has reset the session since. -/
def Renewing (w : World σ) : Prop :=
  ∀ t current, w.Has t → t.place = .asking (.status current) →
    ∃ before since, w.log = before ++ .asked t.id (.status current) :: since ∧
      (∀ other, .asked t.id other ∉ since) ∧
      (w.session.state.phase = .revalidating ∧ (∀ other deed, .did other deed ∉ since) ∨
        w.session.state.phase = .unauthenticated ∧ Resets since)

variable [TokenStore σ]

theorem Moves.renewing (moves : Moves w w' id) (orderly : w.Orderly) (renewing : w.Renewing) :
    w'.Renewing := by
  intro u current has place
  cases moves.sorts orderly with
  | idle same =>
    subst same
    exact renewing u current has place
  | @quiet t lock p s notes moved respects quiet =>
    rcases moved.has_cases has with ⟨p, goes, rfl⟩ | ⟨other, had⟩
    · exact absurd (goes.trans (congrArg some place)) (quiet.silent _)
    · obtain ⟨before, since, log, last, phase⟩ := renewing u current had place
      refine ⟨before, since ++ notes, by simp [moved.log, log], fun request asked => ?_, ?_⟩
      · exact (List.mem_append.mp asked).elim (last request) (quiet.unasked _ _)
      · rw [moved.session, quiet.phase]
        refine phase.imp (And.imp_right fun undone n deed did => ?_)
          (And.imp_right (.append · notes))
        exact (List.mem_append.mp did).elim (undone n deed) (quiet.undone n deed)
  | @turns t occasion lock notes result s comes turn moved =>
    have mine {n : Note} := (orderly.turns comes turn).mine (n := n)
    rcases moved.has_cases has with ⟨p, goes, rfl⟩ | ⟨other, had⟩
    · obtain ⟨a, rfl, rfl⟩ := rest_eq_some goes
      cases place
      refine ⟨w.log ++ notes ++ s.deeds.map (.did t.id), [], ?_, nofun, .inl ⟨?_, nofun⟩⟩
      · rw [moved.log]
        simp [closing, Await.request]
      · rw [moved.session, settled_phase, Session.rested_state]
        cases turn with
        | asks asks => cases asks
        | logsOut _ next => rcases next with next | next <;> cases next
        | revalidates => rfl
    · obtain ⟨before, since, log, last, phase⟩ := renewing u current had place
      refine ⟨before, _, by rw [moved.log, log, List.append_assoc, List.cons_append], ?_, ?_⟩
      · intro request asked
        exact (List.mem_append.mp asked).elim (last request) fun now => other (mine now)
      · rw [moved.session, settled_phase, Session.rested_state]
        -- Who waits for the backend has the flight, so the other call works without it.
        have ashore : occasion.isAshore = true := by
          refine Bool.not_eq_false _ ▸ fun holds => other ?_
          rw [(comes.alone orderly holds ⟨had, place, rfl⟩).1]
        rcases comes.leaves_or_resets orderly turn ashore with rfl | ⟨rfl, resets⟩
        · refine phase.imp (And.imp_right fun undone n deed did => ?_) (And.imp_right (.append · _))
          refine (List.mem_append.mp did).elim (undone n deed) ?_
          simp [orderly.rested, comes.undone, closing_undone]
        · exact .inr ⟨rfl, (resets.append _).later since⟩

theorem Reachable.renewing (reachable : w.Reachable) : w.Renewing :=
  reachable.induction (fun _ _ _ _ _ has => nomatch has)
    fun _ action orderly => (step_moves orderly action).renewing orderly

section Works

variable {method : Method} {e : AuthError} {call : Call}

/-- What is noted in a step in which the call does a stretch of its work. -/
inductive Works (w : World σ) (t : Task) : List Note → Prop
  | intro {occasion : Occasion} {lock : Lock} {notes : List Note} {result : Except AuthError Move}
      {s : Session σ} (comes : Comes w t occasion lock notes)
      (performed : w.session.perform (occasion.work t.call) = (result, s)) :
      Works w t (notes ++ s.deeds.map (.did t.id) ++ closing t lock s.rested result)

/-- Nobody boards on an error, so the stretch that it begins is the one that the call has waited
with. -/
theorem Comes.hears_failure (comes : Comes w t occasion lock notes)
    (answered : .answered id method (.error e) ∈ notes) :
    ∃ a, method = a.method ∧ occasion = .answer a (.error e) ∧ w.Has t ∧ t.place = .asking a := by
  induction comes with
  | fresh | roused | isCalled => simp at answered
  | @answered a has place reply =>
    cases List.mem_singleton.mp answered
    exact ⟨a, rfl, rfl, has, place⟩
  | boards _ turn _ ih =>
    obtain ⟨a, _, rfl, _⟩ := ih (by simpa using answered)
    cases turn

/-- Whoever hears of an error, or has the store do something, does a stretch of work. -/
theorem Moves.works {mover : Nat} (moves : Moves w w' mover) (orderly : w.Orderly)
    (registered : w.Registered) (log : w'.log = w.log ++ notes)
    (started : .started id call ∈ w'.log)
    (busy : (∃ method e, .answered id method (.error e) ∈ notes) ∨ ∃ deed, .did id deed ∈ notes) :
    ∃ t, t.id = id ∧ t.call = call ∧ w.Works t notes := by
  have registered' := moves.registered orderly registered
  cases moves with
  | idle same =>
    obtain rfl : notes = [] := by simpa [same] using log
    simp at busy
  | @turns t occasion lock early result s comes turn stops moved performed =>
    obtain rfl := List.append_cancel_left (log.symm.trans moved.log)
    have mine {n : Note} := (orderly.turns comes turn).mine (n := n)
    have same : t.id = id := busy.elim (fun ⟨_, _, heard⟩ => (mine heard).symm)
      fun ⟨_, did⟩ => (mine did).symm
    subst same
    exact ⟨t, rfl, registered'.once (registered.lists_turned orderly comes moved.log) started,
      .intro comes performed⟩
  | queues comes turn moved =>
    obtain rfl := List.append_cancel_left (log.symm.trans moved.log)
    rcases busy with ⟨_, _, heard⟩ | ⟨deed, did⟩
    · obtain ⟨_, _, rfl, _⟩ := comes.hears_failure heard
      cases turn
    · exact absurd did (comes.undone _ _)
  | shares _ _ _ _ moved | waits _ _ moved =>
    obtain rfl := List.append_cancel_left (log.symm.trans moved.log)
    simp at busy
  | observes comes moved =>
    obtain rfl := List.append_cancel_left (log.symm.trans moved.log)
    rcases busy with ⟨_, _, heard⟩ | ⟨deed, did⟩
    · obtain ⟨_, _, impossible, _⟩ := comes.hears_failure (by simpa using heard)
      cases impossible
    · exact absurd did (by simp [comes.undone])
  | drops has moved =>
    obtain rfl := List.append_cancel_left (log.symm.trans moved.log)
    rcases busy with ⟨_, _, heard⟩ | ⟨deed, did⟩
    · cases (parting_final heard).2
    · cases (parting_final did).2

theorem Comes.returnsOnly {s : Session σ} (comes : Comes w t occasion lock notes)
    (other : t.call.isStartup = false) :
    ReturnsOnly (notes ++ s.deeds.map (.did t.id) ++ closing t lock s.rested (.error e)) t.id
      (.error e) := by
  intro value
  constructor
  · intro told
    obtain ⟨_, ended, same, told⟩ := comes.told told
    cases ended with
    | ok => cases same
    | error =>
      cases same
      rw [told, Session.told_of_other _ _ other]
  · rintro rfl
    exact List.mem_append_right _ (returned_of_farewell _ _ _ _ other)

/-- A call passes on the error that answers its question. -/
theorem Works.hears (works : w.Works t notes) (orderly : w.Orderly) (boards : t.call.boards = true)
    (answered : .answered t.id method (.error e) ∈ notes) :
    ∃ a, method = a.method ∧ w.Has t ∧ t.place = .asking a ∧
      ReturnsOnly notes t.id (.error (Session.passedOn w.session.state.phase a e)) := by
  obtain @⟨occasion, lock, notes, result, s, comes, performed⟩ := works
  have early : .answered t.id method (.error e) ∈ notes := by
    simp only [List.mem_append, List.mem_map, reduceCtorEq, and_false, exists_false, or_false]
      at answered
    refine answered.resolve_right fun closed => ?_
    rcases closing_cases closed with final | ⟨_, _, same⟩
    · cases final
    · cases same
  obtain ⟨a, rfl, rfl, has, place⟩ := comes.hears_failure early
  have suits : a.isOf t.call = true := (comes.fits orderly).1
  have fails := Session.perform_resume_error w.session e suits boards
  rw [Occasion.work] at performed
  rw [performed] at fails
  cases fails
  exact ⟨a, rfl, has, place, comes.returnsOnly (Call.other_of_boards boards)⟩

/-- A call passes on the error that the store answers with. -/
theorem Works.deals (works : w.Works t notes) (orderly : w.Orderly)
    (boards : t.call.boards = true) :
    (deeds notes).map (·.succeeded) = (replies w.session.store (deeds notes)).map (·.isOk) ∧
      ∀ e, .error e ∈ replies w.session.store (deeds notes) →
        ReturnsOnly notes t.id (.error e) := by
  obtain @⟨occasion, lock, notes, result, s, comes, performed⟩ := works
  obtain ⟨own, noted, _, flagged, told⟩ := Session.Reports.work t.call boards occasion w.session
  rw [performed, orderly.rested, List.nil_append] at noted
  have all : deeds (notes ++ s.deeds.map (.did t.id) ++ closing t lock s.rested result) = own := by
    rw [deeds_append, deeds_append, deeds_eq_nil comes.undone, deeds_dids,
      deeds_eq_nil (closing_undone _ _), List.nil_append, List.append_nil]
    exact noted
  refine ⟨all ▸ flagged, fun e failed => ?_⟩
  have fails := told e (all ▸ failed)
  rw [performed] at fails
  cases fails
  exact comes.returnsOnly (Call.other_of_boards boards)

end Works

omit [TokenStore σ] in
/-- Only a check that a disconnect has overtaken has another error to tell. -/
theorem Renewing.passedOn {e : AuthError} {a : Await} (renewing : w.Renewing) (has : w.Has t)
    (place : t.place = .asking a) :
    (a.method = .status ∧ Overtaken w.log t.id →
      Session.passedOn w.session.state.phase a e = .invalidTransition .unauthenticated .failed) ∧
    (¬(a.method = .status ∧ Overtaken w.log t.id) →
      Session.passedOn w.session.state.phase a e = e) := by
  cases a with
  | status current =>
    obtain ⟨before, since, log, last, ⟨phase, undone⟩ | ⟨phase, resets⟩⟩ :=
      renewing t current has place
    · have intact : ¬Overtaken w.log t.id := by
        rw [overtaken_iff log last]
        intro resets
        obtain ⟨other, deed, did⟩ := resets.did
        exact undone other deed did
      simp [intact, Session.passedOn, phase, Phase.isPending]
    · have overtaken : Overtaken w.log t.id := (overtaken_iff log last).mpr resets
      simp [overtaken, Session.passedOn, phase, Phase.isPending, Await.method, Await.request,
        Request.method]
  | _ => simp [Session.passedOn, Await.method, Await.request, Request.method]

/-- A check, a connect or a handshake that somebody fails returns the error as it is, whatever goes on
beside it; but a check whose question to the backend fails after a disconnect has reset the session
returns that it cannot take the edge back. -/
theorem failures_are_passed_on (reachable : w.Reachable) {action : Action}
    (log : (w.step action).log = w.log ++ notes) {call : Call}
    (started : .started id call ∈ (w.step action).log) (boards : call.boards = true) :
    (∀ (method : Method) (e : AuthError), .answered id method (.error e) ∈ notes →
      (method = .status ∧ Overtaken w.log id →
        ReturnsOnly notes id (.error (.invalidTransition .unauthenticated .failed))) ∧
      (¬(method = .status ∧ Overtaken w.log id) → ReturnsOnly notes id (.error e))) ∧
    ∀ deed, .did id deed ∈ notes →
      (∀ e, .error e ∈ replies w.session.store (deeds notes) → ReturnsOnly notes id (.error e)) ∧
      (deed.succeeded = false → ∃ e, .error e ∈ replies w.session.store (deeds notes)) := by
  have orderly := reachable.orderly
  have moves := step_moves orderly action
  constructor
  · intro method e answered
    obtain ⟨t, rfl, rfl, works⟩ :=
      moves.works orderly reachable.registered log started (.inl ⟨_, _, answered⟩)
    obtain ⟨a, rfl, has, place, returns⟩ := works.hears orderly boards answered
    obtain ⟨overtaken, intact⟩ := reachable.renewing.passedOn (e := e) has place
    exact ⟨fun late => overtaken late ▸ returns, fun inTime => intact inTime ▸ returns⟩
  · intro deed did
    obtain ⟨t, rfl, rfl, works⟩ :=
      moves.works orderly reachable.registered log started (.inr ⟨deed, did⟩)
    obtain ⟨flagged, told⟩ := works.deals orderly boards
    refine ⟨told, fun vain => ?_⟩
    have noted : deed ∈ deeds notes := List.mem_filterMap.mpr ⟨_, did, rfl⟩
    have flag : false ∈ (replies w.session.store (deeds notes)).map (·.isOk) :=
      flagged ▸ List.mem_map.mpr ⟨deed, noted, vain⟩
    obtain ⟨reply, member, notOk⟩ := List.mem_map.mp flag
    cases reply with
    | ok => cases notOk
    | error e => exact ⟨e, member⟩

section Fault

/-- A check of a verified session waits for the backend. -/
def checking : World MemoryStore :=
  (ofSession (Session.create ⟨"", "", ""⟩ true (⟨none⟩ : MemoryStore))).steps
    (signIn ++ [.start .check false])

def unavailable : AuthError := .backend 503 "busy"

/-- What is on record when the backend could not tell. -/
def enquiry (e : AuthError) : List Note :=
  [.answered 1 .status (.error unavailable), .landed 1 false, .returned 1 (.error e)]

theorem checking_reachable : checking.Reachable := ⟨_, _, _, _, rfl⟩

/-- The check still waits, and a disconnect has begun. -/
def outpaced : World MemoryStore := checking.step (.start .disconnect false)

theorem outpaced_reachable : outpaced.Reachable := checking_reachable.step _

theorem outpaced_log :
    (outpaced.step (.answer 1 .status (.error unavailable))).log =
      outpaced.log ++ enquiry (.invalidTransition .unauthenticated .failed) := rfl

theorem outpaced_overtaken : Overtaken outpaced.log 1 := by
  refine ⟨checking.log.dropLast, .status (challenged.merge { verified := true }),
    [.started 2 .disconnect, .did 2 (.cleared true), .asked 2 .disconnect], rfl, ?_,
    [], 2, true, [.asked 2 .disconnect], rfl⟩
  simp

/-- The backend is busy: the check returns that, unless a disconnect has begun. -/
theorem failed_status_passed_on_or_lost :
    ReturnsOnly (enquiry unavailable) 1 (.error unavailable) ∧
      ReturnsOnly (enquiry (.invalidTransition .unauthenticated .failed)) 1
        (.error (.invalidTransition .unauthenticated .failed)) := by
  constructor
  · have log : (checking.step (.answer 1 .status (.error unavailable))).log =
        checking.log ++ enquiry unavailable := rfl
    have started : .started 1 .check ∈
        (checking.step (.answer 1 .status (.error unavailable))).log :=
      List.mem_of_getElem? (i := 17) rfl
    have inTime : ¬Overtaken checking.log 1 := by
      have split : checking.log = checking.log.dropLast ++
        [.asked 1 (.status (challenged.merge { verified := true }))] := rfl
      rw [overtaken_iff split nofun]
      exact fun resets => nomatch resets.did
    obtain ⟨heard, _⟩ := failures_are_passed_on checking_reachable log started rfl
    exact (heard .status unavailable List.mem_cons_self).2 fun late => inTime late.2
  · have started : .started 1 .check ∈
        (outpaced.step (.answer 1 .status (.error unavailable))).log :=
      List.mem_of_getElem? (i := 17) rfl
    obtain ⟨heard, _⟩ := failures_are_passed_on outpaced_reachable outpaced_log started rfl
    exact (heard .status unavailable List.mem_cons_self).1 ⟨rfl, outpaced_overtaken⟩

/-- So a failure is not always returned as it is, though no call is dropped. -/
theorem not_all_failures_passed_on :
    ¬∀ (w : World MemoryStore) (action : Action) (notes : List Note) (id : Nat) (call : Call)
      (method : Method) (e : AuthError), w.Reachable → (∀ other, .dropped other ∉ w.log) →
        (w.step action).log = w.log ++ notes → .started id call ∈ (w.step action).log →
        call.boards = true → .answered id method (.error e) ∈ notes → .returned id (.error e) ∈ notes := by
  intro always
  have kept : outpaced.log.all (fun | .dropped _ => false | _ => true) = true := rfl
  have undropped (other : Nat) : .dropped other ∉ outpaced.log :=
    fun dropped => Bool.false_ne_true (List.all_eq_true.mp kept _ dropped)
  have started : .started 1 .check ∈
      (outpaced.step (.answer 1 .status (.error unavailable))).log :=
    List.mem_of_getElem? (i := 17) rfl
  have told := always outpaced _ _ 1 .check .status unavailable outpaced_reachable undropped
    outpaced_log started rfl List.mem_cons_self
  simp [enquiry, unavailable] at told

end Fault

end World

end WalletSession
