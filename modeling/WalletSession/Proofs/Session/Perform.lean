import Mathlib.Tactic.Simps.Basic
import WalletSession.Session.Handshake

/-! Operations as functions of the session: what an operation returns and the session that it
leaves. Each operation that other ones are made of has one equation here, and what follows cites
these equations instead of opening the operations. -/
namespace WalletSession.Session

variable {σ α β : Type}

def perform (s : Session σ) (work : Act σ α) : Except AuthError α × Session σ :=
  match work s with
  | .ok a s => (.ok a, s)
  | .error e s => (.error e, s)

@[simp] theorem perform_pure (s : Session σ) (a : α) :
    s.perform (pure a : Act σ α) = (.ok a, s) := rfl

@[simp] theorem perform_throw (s : Session σ) (e : AuthError) :
    s.perform (throw e : Act σ α) = (.error e, s) := rfl

@[simp] theorem perform_get (s : Session σ) : s.perform (get : Act σ (Session σ)) = (.ok s, s) := rfl

@[simp] theorem perform_set (s t : Session σ) : s.perform (set t : Act σ Unit) = (.ok (), t) := rfl

@[simp] theorem perform_bind (s : Session σ) (work : Act σ α) (next : α → Act σ β) :
    s.perform (work >>= next) =
      match s.perform work with
      | (.ok a, s) => s.perform (next a)
      | (.error e, s) => (.error e, s) := by
  simp only [perform, bind, EStateM.bind]
  cases work s <;> rfl

@[simp] theorem perform_map (s : Session σ) (f : α → β) (work : Act σ α) :
    s.perform (f <$> work) =
      match s.perform work with
      | (.ok a, s) => (.ok (f a), s)
      | (.error e, s) => (.error e, s) := by
  simp only [perform, Functor.map, EStateM.map]
  cases work s <;> rfl

@[simp] theorem perform_tryCatch (s : Session σ) (work : Act σ α) (handler : AuthError → Act σ α) :
    s.perform (tryCatch work handler) =
      match s.perform work with
      | (.ok a, s) => (.ok a, s)
      | (.error e, s) => s.perform (handler e) := by
  simp only [perform, tryCatch, tryCatchThe, MonadExceptOf.tryCatch]
  delta EStateM.tryCatch
  cases work s <;> rfl

@[simp] theorem perform_receive (s : Session σ) (answer : Except AuthError α) :
    s.perform (receive answer) = (answer, s) := by
  cases answer <;> rfl

theorem perform_stop (s : Session σ) (work : Act σ Stop) :
    s.perform (do return Move.stop (← work)) =
      ((s.perform work).1.map .stop, (s.perform work).2) := by
  rw [perform_bind]
  rcases s.perform work with ⟨_ | _, _⟩ <;> rfl

@[simps] def inPhase (s : Session σ) (phase : Phase) : Session σ :=
  { s with state := { s.state with phase } }

@[simps] def withToken (s : Session σ) (token : SessionToken) : Session σ :=
  { s with state := { s.state with token } }

@[simps] def withConnected (s : Session σ) (connected : Bool) : Session σ :=
  { s with state := { s.state with connected } }

/-- A failure ends the pending phase in which it occurs. -/
def failed (s : Session σ) : Session σ :=
  if s.state.phase.isPending then s.inPhase .unauthenticated else s

@[simp] theorem perform_setConnected (s : Session σ) (connected : Bool) :
    s.perform (setConnected connected) = (.ok (), s.withConnected connected) := rfl

@[simp] theorem perform_setToken (s : Session σ) (token : SessionToken) :
    s.perform (setToken token) = (.ok (), s.withToken token) := rfl

theorem perform_advance (s : Session σ) (event : Event) :
    s.perform (advance event) =
      match transition s.state.phase event with
      | .ok step => (.ok step.effect, s.inPhase step.phase)
      | .error e => (.error e, s) := by
  simp only [advance, perform_bind, perform_get, perform_receive]
  cases transition s.state.phase event <;> rfl

theorem perform_giveUp (s : Session σ) :
    s.perform giveUp =
      if s.state.phase.isPending then (.ok (), s.inPhase .unauthenticated)
      else (.error (.invalidTransition s.state.phase .failed), s) := by
  unfold giveUp follow
  rw [perform_bind, perform_advance]
  cases pending : s.state.phase.isPending with
  | true => simp [transition_failed _ pending]
  | false => cases phase : s.state.phase <;> simp_all [transition, Phase.isPending]

theorem perform_orFail (s : Session σ) (work : Act σ α) :
    s.perform (orFail work) =
      match s.perform work with
      | (.ok a, s) => (.ok a, s)
      | (.error e, s) => (.error e, s.failed) := by
  simp only [orFail, perform_tryCatch, perform_bind, perform_get]
  split
  · rfl
  · rename_i e s _
    cases pending : s.state.phase.isPending with
    | false => simp [failed, pending]
    | true => simp [failed, pending, perform_giveUp]

theorem perform_orFail_error {s : Session σ} {work : Act σ α} {e : AuthError}
    (fails : s.perform work = (.error e, s)) (pending : s.state.phase.isPending = true) :
    s.perform (orFail work) = (.error e, s.inPhase .unauthenticated) := by
  simp only [perform_orFail, fails, failed, pending, if_true]

variable [TokenStore σ]

@[simps] def wrote (s : Session σ) (token : SessionToken) : Session σ :=
  { s with
    store := (TokenStore.save s.store token).2
    deeds := s.deeds ++ [.saved token (TokenStore.save s.store token).1.isOk] }

/-- After the backend has confirmed a record and the store has taken it. -/
@[simps!] def confirmed (s : Session σ) (token : SessionToken) : Session σ :=
  (((s.inPhase .verified).wrote token).withToken token).withConnected true

/-- After a reset, whether or not the store could be cleared. -/
@[simps] def forgotten (s : Session σ) : Session σ :=
  { s with
    state := { s.state with phase := .unauthenticated, token := {}, connected := false }
    store := (TokenStore.clear s.store).2
    deeds := s.deeds ++ [.cleared (TokenStore.clear s.store).1.isOk] }

theorem perform_apply_clearSession (s : Session σ) :
    (s.inPhase .unauthenticated).perform (apply .clearSession) =
      ((TokenStore.clear s.store).1, s.forgotten) := by
  simp only [apply, clearRecord, perform_bind, perform_setToken, perform_setConnected, perform_get,
    perform_set, perform_receive]
  rfl

theorem perform_reset (s : Session σ) :
    s.perform reset = ((TokenStore.clear s.store).1, s.forgotten) := by
  simp only [reset, perform_bind, perform_advance, transition_reset, perform_apply_clearSession]

theorem perform_commit (s : Session σ) (token : SessionToken) :
    s.perform (commit token) =
      match (TokenStore.save s.store token).1 with
      | .ok () => (.ok (), (s.wrote token).withToken token)
      | .error e => (.error e, s.wrote token) := by
  simp only [commit, saveRecord, perform_bind, perform_get, perform_set, perform_receive,
    perform_setToken]
  cases answered : (TokenStore.save s.store token).1 <;> simp [wrote, answered]

end WalletSession.Session
