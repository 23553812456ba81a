import WalletSession.Proofs.World.Reconnect
import WalletSession.Proofs.World.Refused
import WalletSession.Proofs.World.Returns
import WalletSession.Proofs.World.Waiting

/-! What a failed check leaves of the connection. A check fails in five ways, and the flag is lowered
outright only where the backend does not answer. A reset has lowered it before, so that two other ways
find it down; but a store that refuses the confirmed record, and a phase that a dropped check has left
behind, end the check with the flag as it was. -/
namespace WalletSession

variable {σ : Type} [TokenStore σ]

/-- The store was asked to keep a record for the call, and did not. -/
def Unkept (id : Nat) (notes : List Note) : Prop := ∃ token, .did id (.saved token false) ∈ notes

namespace Session

variable {s s' : Session σ} {occasion : Occasion}

/-- A failed check has not touched the flag only if it did not get to ask, or had an answer that the
store did not take. -/
theorem Turn.leaves_connected {e : AuthError} (turn : Turn .check s occasion (.error e) s')
    (fits : occasion.Fits .check s.state.phase) (shown : s.Shown) (rested : s.deeds = []) :
    s'.state.connected = true ↔ s.state.connected = true ∧
      ((∃ token, .saved token false ∈ s'.deeds) ∨ occasion = .flight ∧ s'.deeds = [] ∧
        s.state.phase = .revalidating ∧ e = .invalidTransition .revalidating .revalidate) := by
  cases turn with
  | fails ends => cases ends.other.2
  | @isRefused a reply _ aboard early =>
    have suits : a.isOf .check = true := fits.1
    cases a <;> contradiction
  | cannotCheck checks present phase =>
    cases checks with
    | connected | prompted => cases fits.1
    | alone =>
      constructor
      · intro connected
        have revalidating := (shown connected).resolve_left phase.2
        exact ⟨connected, .inr ⟨rfl, rested, revalidating, by rw [revalidating]⟩⟩
      · exact And.left
  | forgetsFailing => simp [rested]
  | fallsBackFailing only => cases only
  | overtaken edge reset => simp [shown.apart reset (by decide)]
  | @givesUp a reply _ phase shakes =>
    have suits : a.isOf .check = true := fits.1
    cases a <;> contradiction
  | isUnanswered => simp [rested]
  | isRejected => cases fits.1
  | cannotKeep edge keeps unsaved =>
    cases keeps with
    | challenge | accepted | rejected => cases fits.1
    | renewed => simp [rested, unsaved, Except.isOk, Except.toBool]

end Session

namespace World

variable {w w' : World σ} {t : Task} {occasion : Occasion} {lock : Lock} {notes : List Note}

/-- The call fails as it begins its flight, with nobody asked for anything: a call that was dropped has
left the phase of a check behind. -/
structure Barred (w : World σ) (id : Nat) (e : AuthError) (notes : List Note) : Prop where
  boarded : .boarded id ∈ notes
  undone (deed : Deed) : .did id deed ∉ notes
  phase : w.session.state.phase = .revalidating
  error : e = .invalidTransition .revalidating .revalidate
  dropped : ∃ other, .dropped other ∈ w.log

theorem Comes.boarded_iff (comes : Comes w t occasion lock notes) :
    .boarded t.id ∈ notes ↔ occasion = .flight := by
  cases comes with
  | fresh | roused | answered | isCalled => simp
  | boards => simp

/-- Who begins a flight in a pending phase finds it left behind. -/
theorem Comes.finds_dropped (comes : Comes w t .flight lock notes) (orderly : w.Orderly)
    (attended : w.Attended) (pending : w.session.state.phase.isPending = true) :
    ∃ other, .dropped other ∈ w.log := by
  rcases attended pending with ⟨u, a, has, asking, edge⟩ | dropped
  · obtain ⟨_, _, other⟩ := comes.alone orderly rfl ⟨has, asking, Await.isAboard_of_phase edge⟩
    contradiction
  · exact dropped

/-- A check that fails leaves the session disconnected, but for two cases, in which it leaves the flag
as it was: the store did not keep the record that the backend has just confirmed, or the check could
not begin, because one that was dropped has left its phase behind. -/
theorem failed_checks_disconnect (reachable : w.Reachable) {action : Action} {notes : List Note}
    (log : (w.step action).log = w.log ++ notes) {id : Nat} {e : AuthError}
    (returned : .returned id (.error e) ∈ notes) (started : .started id .check ∈ (w.step action).log) :
    (w.step action).session.state.connected = true ↔
      w.session.state.connected = true ∧ (Unkept id notes ∨ w.Barred id e notes) := by
  have orderly := reachable.orderly
  obtain ⟨t, rfl, only, returns⟩ :=
    (step_moves orderly action).returns orderly reachable.registered log returned started
  have other : t.call.isStartup = false := only ▸ rfl
  generalize told : Except.error e = result at returns
  cases returns with
  | shares =>
    rw [Session.told_of_other _ _ other] at told
    cases told
  | observes _ _ observes => simp [observes, Call.isStartup] at other
  | @ends occasion lock notes value s comes turn moved =>
    rw [Session.told_of_other _ _ other] at told
    subst told
    have early {n : Note} (early : n.isFinal = false) : n ∉ farewell t lock s.rested (.error e) :=
      fun member => Bool.false_ne_true (early.symm.trans (farewell_final member))
    have did (deed : Deed) : .did t.id deed ∈ notes ++ s.deeds.map (.did t.id) ++
        farewell t lock s.rested (.error e) ↔ deed ∈ s.deeds := by
      simp [comes.undone, early (n := .did t.id deed) rfl]
    have boarded : .boarded t.id ∈ notes ++ s.deeds.map (.did t.id) ++
        farewell t lock s.rested (.error e) ↔ occasion = .flight := by
      simp [comes.boarded_iff, early (n := .boarded t.id) rfl]
    rw [moved.session, Session.concluded_of_other _ _ other, Session.rested_state,
      Session.Turn.leaves_connected (only ▸ turn) (only ▸ comes.fits orderly) reachable.shown
        orderly.rested]
    refine and_congr_right fun _ => or_congr ?_ ?_
    · exact exists_congr fun token => (did _).symm
    · constructor
      · rintro ⟨rfl, undone, phase, error⟩
        refine ⟨boarded.mpr rfl, fun deed => ?_, phase, error, ?_⟩
        · rw [did, undone]
          exact List.not_mem_nil
        · exact comes.finds_dropped orderly reachable.attended (by rw [phase, Phase.isPending])
      · intro barred
        refine ⟨boarded.mp barred.boarded, ?_, barred.phase, barred.error⟩
        exact List.eq_nil_iff_forall_not_mem.mpr fun deed member =>
          barred.undone deed ((did deed).mpr member)

section Fault

/-- A check of a verified session waits for the backend, and the disk has become full. -/
def renewing : World (FaultyStore MemoryStore) :=
  (ofSession (Session.create ⟨"", "", ""⟩ true
      (⟨⟨none⟩, [none, none, some (.storage "disk full")], []⟩ : FaultyStore MemoryStore))).steps
    (signIn ++ [.start .check false])

theorem renewing_reachable : renewing.Reachable := ⟨_, _, _, _, rfl⟩

theorem renewing_connected : renewing.session.state.connected = true := rfl

/-- The check that fails over the full disk. -/
def unrenewed : World (FaultyStore MemoryStore) :=
  renewing.step (.answer 1 .status (.ok { verified := true }))

def renewal : List Note :=
  [.answered 1 .status (.ok { verified := true }),
    .did 1 (.saved (challenged.merge { verified := true }) false), .landed 1 true,
    .returned 1 (.error (.storage "disk full"))]

theorem unrenewed_log : unrenewed.log = renewing.log ++ renewal := rfl

theorem unrenewed_returned : .returned 1 (.error (.storage "disk full")) ∈ renewal := by
  simp [renewal]

theorem unrenewed_started : .started 1 .check ∈ unrenewed.log :=
  List.mem_of_getElem? (i := 17) rfl

/-- The check reports the disk, and the session stays connected. -/
theorem still_connected_over_full_disk :
    unrenewed.session.state.connected = true ∧ unrenewed.log = renewing.log ++ renewal ∧
      .returned 1 (.error (.storage "disk full")) ∈ renewal := by
  have unkept : Unkept 1 renewal := ⟨challenged.merge { verified := true }, by simp [renewal]⟩
  exact ⟨(failed_checks_disconnect renewing_reachable unrenewed_log unrenewed_returned
    unrenewed_started).mpr ⟨renewing_connected, .inl unkept⟩, unrenewed_log, unrenewed_returned⟩

/-- So a failed check does not always leave the session disconnected. -/
theorem not_disconnected_by_every_failure :
    ¬∀ (w : World (FaultyStore MemoryStore)) (action : Action) (notes : List Note) (id : Nat)
      (e : AuthError), w.Reachable → (w.step action).log = w.log ++ notes →
        .returned id (.error e) ∈ notes → .started id .check ∈ (w.step action).log →
        (w.step action).session.state.connected = false := by
  intro always
  have lowered := always renewing _ renewal 1 _ renewing_reachable unrenewed_log
    unrenewed_returned unrenewed_started
  have raised : unrenewed.session.state.connected = true := rfl
  exact absurd (raised.symm.trans lowered) (by decide)

end Fault

end World

end WalletSession
