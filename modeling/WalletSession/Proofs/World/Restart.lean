import WalletSession.Proofs.Json.Record
import WalletSession.Proofs.Session.Reports
import WalletSession.Proofs.Session.Trusted
import WalletSession.Proofs.Store.FileRecord
import WalletSession.Proofs.World.Orderly

/-! A restart sees the current session. What the store holds is the record in memory, through every
answer, failed save and drop, as long as no removal has failed that nothing has made up for. -/
namespace WalletSession

variable {σ : Type}

def Note.deed? : Note → Option Deed
  | .did _ deed => some deed
  | _ => none

/-- What the store was asked to do in a history, oldest first. -/
def deeds (log : List Note) : List Deed := log.filterMap Note.deed?

/-- No removal has failed since the store last did what it was asked. -/
def Recovered (deeds : List Deed) : Prop :=
  .cleared false ∉ deeds.reverse.takeWhile (!·.succeeded)

instance (deeds : List Deed) : Decidable (Recovered deeds) := inferInstanceAs (Decidable (_ ∉ _))

section Deeds

variable {earlier later : List Deed}

@[simp] theorem deeds_append (first second : List Note) :
    deeds (first ++ second) = deeds first ++ deeds second := List.filterMap_append

@[simp] theorem deeds_dids (id : Nat) (own : List Deed) : deeds (own.map (.did id)) = own := by
  simp [deeds, List.filterMap_map, Function.comp_def, Note.deed?]

theorem deeds_eq_nil {notes : List Note} (undone : ∀ id deed, .did id deed ∉ notes) :
    deeds notes = [] := by
  refine List.filterMap_eq_nil_iff.mpr fun n member => ?_
  cases n with
  | did id deed => exact absurd member (undone id deed)
  | _ => rfl

theorem not_recovered (earlier : List Deed) : ¬Recovered (earlier ++ [.cleared false]) := by
  simp [Recovered, Deed.succeeded]

/-- What the store has not done makes up for nothing. -/
theorem Recovered.before (recovered : Recovered (earlier ++ later))
    (vain : ∀ deed ∈ later, deed.succeeded = false) : Recovered earlier := by
  intro failed
  refine recovered ?_
  rw [List.reverse_append, List.takeWhile_append_of_pos (by simpa using vain)]
  exact List.mem_append_right _ failed

end Deeds

variable [TokenStore σ] [LawfulStore σ]

namespace Session

variable {s s' : Session σ} {call : Call} {occasion : Occasion} {result : Except AuthError Move}

/-- The store holds the record in memory: as its text, or as that of which memory was made. -/
def Mirrored (s : Session σ) : Prop :=
  LawfulStore.record s.store = some (Wire.encode s.state.token) ∧ s.state.token.IsBacked ∨
    ((LawfulStore.record s.store).bind SessionToken.ofRecord?).getD {} = s.state.token

theorem Mirrored.congr (mirrored : s.Mirrored) (token : s'.state.token = s.state.token)
    (record : LawfulStore.record s'.store = LawfulStore.record s.store) : s'.Mirrored := by
  unfold Mirrored
  rwa [token, record]

theorem Mirrored.create [SteadyStore σ] (chain : ChainConfig) (hasWallet : Bool) (store : σ) :
    (Session.create chain hasWallet store).Mirrored := by
  refine .inr ?_
  change (Option.bind (LawfulStore.record (TokenStore.load store).2) _).getD {} =
    (TokenStore.load store).1
  rw [SteadyStore.rereads, LawfulStore.loads]

theorem Mirrored.forgotten (cleared : (TokenStore.clear s.store).1 = .ok ()) :
    s.forgotten.Mirrored := by
  refine .inr ?_
  rw [forgotten_store, LawfulStore.clears cleared]
  rfl

theorem Mirrored.wrote {token : SessionToken} (backed : token.IsBacked)
    (saved : (TokenStore.save s.store token).1 = .ok ()) :
    ((s.wrote token).withToken token).Mirrored :=
  .inl ⟨LawfulStore.saves saved, backed⟩

/-- The record in memory is what would be loaded, if its number is written well. -/
theorem Mirrored.load (mirrored : s.Mirrored)
    (reads : ∀ x ∈ s.state.token.createdAt, x.ReadsBack) :
    (TokenStore.load s.store).1 = s.state.token := by
  rw [LawfulStore.loads]
  rcases mirrored with ⟨text, backed⟩ | same
  · rw [text, Option.bind_some, SessionToken.ofRecord?_encode backed reads, Option.getD_some]
  · exact same

omit [LawfulStore σ] in
theorem deeds_forgotten (s : Session σ) :
    (TokenStore.clear s.store).1 = .ok () ∨ s.forgotten.deeds = s.deeds ++ [.cleared false] := by
  cases cleared : (TokenStore.clear s.store).1 with
  | ok => exact .inl rfl
  | error e => exact .inr (by simp [cleared, Except.isOk, Except.toBool])

/-- A stretch ends in a removal that fails, or the store mirrors the memory after it, or neither has
changed. -/
theorem Turn.mirrored (turn : Turn call s occasion result s') (rested : s.deeds = []) :
    (∃ before, s'.deeds = before ++ [.cleared false]) ∨ s'.Mirrored ∨
      s'.state.token = s.state.token ∧
        LawfulStore.record s'.store = LawfulStore.record s.store ∧
        ∀ deed ∈ s'.deeds, deed.succeeded = false := by
  have forgets (s : Session σ) :
      (∃ before, s.forgotten.deeds = before ++ [.cleared false]) ∨ s.forgotten.Mirrored :=
    (deeds_forgotten s).symm.imp (fun failed => ⟨_, failed⟩) .forgotten
  cases turn with
  | boards | ready | asks | isUnready | returns | fails | setsOut | lacksWallet | prompts | isRefused
  | cannotCheck | revalidates | starts | overtaken | signs | submits | givesUp | isUnanswered =>
    exact .inr (.inr ⟨rfl, rfl, by simp [rested]⟩)
  | logsOut | forgetsFailing | forgets | startsOver | fallsBackFailing | fallsBackVainly
  | fallsBack => exact (forgets _).imp_right .inl
  | keepsChallenge _ given saved =>
    exact .inr (.inl (.wrote (s := s.inPhase _) (SessionToken.isBacked_merge _ _) saved))
  | confirms _ keeps saved =>
    have wrote := Mirrored.wrote (s := s.inPhase .verified) (isBacked_kept keeps) saved
    exact .inr (.inl (wrote.congr rfl rfl))
  | isRejected _ keeps saved =>
    exact .inr (.inl (.wrote (s := s.inPhase _) (isBacked_kept keeps) saved))
  | cannotKeep _ _ unsaved =>
    refine .inr (.inr ⟨rfl, LawfulStore.refusesSave unsaved, ?_⟩)
    simp [rested, unsaved, Deed.succeeded, Except.isOk, Except.toBool]

end Session

namespace World

variable {w w' : World σ}

theorem Moves.mirrored {id : Nat} (moves : Moves w w' id) (orderly : w.Orderly)
    (mirrored : Recovered (deeds w.log) → w.session.Mirrored)
    (recovered : Recovered (deeds w'.log)) : w'.session.Mirrored := by
  cases moves.sorts orderly with
  | idle same =>
    subst same
    exact mirrored recovered
  | turns comes turn moved =>
    rw [moved.log] at recovered
    simp only [deeds_append, deeds_dids, deeds_eq_nil comes.undone,
      deeds_eq_nil (closing_undone _ _), List.nil_append, List.append_nil] at recovered
    -- What the store has done last in this turn decides; if it has done nothing, so does the past.
    rcases turn.mirrored orderly.rested with ⟨before, failed⟩ | now | ⟨token, record, vain⟩
    · rw [failed, ← List.append_assoc] at recovered
      exact absurd recovered (not_recovered _)
    · exact now.congr (by simp [moved.session]) (by simp [moved.session])
    · exact (mirrored (recovered.before vain)).congr (by simp [moved.session, token])
        (by simp [moved.session, record])
  | quiet moved _ quiet =>
    rw [moved.log, deeds_append, deeds_eq_nil quiet.undone, List.append_nil] at recovered
    exact (mirrored recovered).congr (by rw [moved.session, quiet.token])
      (by rw [moved.session, quiet.store])

omit [LawfulStore σ] in
@[simp] theorem drop_session (w : World σ) (id : Nat) : (w.step (.drop id)).session = w.session := by
  have landed (w : World σ) (t : Task) : (w.landIfAboard t).session = w.session := by
    unfold World.landIfAboard
    split <;> rfl
  have handsOn (w : World σ) (t : Task) : (if t.call = .observe then
      w.setStartupLock (w.startup.lock.leave id) else w).session = w.session := by
    split <;> rfl
  change (w.drop id).session = w.session
  unfold World.drop
  split
  next t _ =>
    refine (handsOn _ t).trans ?_
    split
    · rfl
    · exact landed _ t
  next => rfl

omit [LawfulStore σ] in
theorem drops_session (w : World σ) (ids : List Nat) :
    (w.steps (ids.map .drop)).session = w.session := by
  induction ids generalizing w with
  | nil => rfl
  | cons id ids ih => rw [List.map_cons, steps_cons, ih, drop_session]

variable [SteadyStore σ]

theorem Reachable.mirrored (reachable : w.Reachable) (recovered : Recovered (deeds w.log)) :
    w.session.Mirrored := by
  revert recovered
  exact reachable.induction (fun chain hasWallet store _ => .create chain hasWallet store)
    fun _ action orderly => (step_moves orderly action).mirrored orderly

/-- Whoever loads the store gets the record in memory, and so does a new session over the store once
the calls of this one were dropped. -/
theorem restart_sees_session (reachable : w.Reachable) (recovered : Recovered (deeds w.log))
    (reads : ∀ x ∈ w.session.state.token.createdAt, x.ReadsBack) :
    (TokenStore.load w.session.store).1 = w.session.state.token ∧
      ∀ (dropped : List Nat) (chain : ChainConfig) (hasWallet : Bool),
        (Session.create chain hasWallet
          (w.steps (dropped.map .drop)).session.store).state.token = w.session.state.token := by
  have loaded := (reachable.mirrored recovered).load reads
  refine ⟨loaded, fun dropped chain hasWallet => ?_⟩
  rw [drops_session]
  exact loaded

/-- The record is in a file. A removal fails, the next handshake makes up for it, and its last record
cannot be saved. -/
theorem restart_after_failures :
    let store : FaultyStore FileStore := {
      inner := .inDirectory ⟨[("auth_token.json", .file "\x7b".toUTF8)]⟩ ⟨"."⟩
      saveFaults := [none, some (.storage "full")]
      clearFaults := [some (.storage "busy")] }
    let issued : SessionToken :=
      { token := some "t", account := some "a", nonce := some "n",
        createdAt := some ⟨0x41D954FC40200000⟩ }
    let w := (ofSession (Session.create ⟨"", "", ""⟩ true store)).steps
      [.start .handshake false, .start .handshake false, .answer 1 .account (.ok "a"),
        .answer 1 .issue (.ok issued),
        .answer 1 .signMessage (.ok ⟨true, some { message := "m", nonce := "n", signature := [] }⟩),
        .start .connect false, .answer 1 .publicKey (.ok "k"),
        .answer 1 .verify (.ok { verified := true })]
    deeds w.log = [.cleared false, .cleared true, .saved issued true,
        .saved { issued with verified := true } false] ∧
      w.session.state.token = issued ∧ Recovered (deeds w.log) ∧
      (Session.create ⟨"", "", ""⟩ false
        (w.steps ([2].map .drop)).session.store).state.token = issued := by
  intro store issued w
  have reachable : w.Reachable := ⟨_, _, _, _, rfl⟩
  have done : deeds w.log = [.cleared false, .cleared true, .saved issued true,
      .saved { issued with verified := true } false] := by decide +kernel
  have token : w.session.state.token = issued := by decide +kernel
  have recovered : Recovered (deeds w.log) := by
    rw [done]
    decide
  have reads : ∀ x ∈ w.session.state.token.createdAt, x.ReadsBack := by
    rw [token]
    rintro x ⟨⟩
    unfold Binary64.ReadsBack
    decide +kernel
  have restarted := (restart_sees_session reachable recovered reads).2 [2] ⟨"", "", ""⟩ false
  rw [token] at restarted
  exact ⟨done, token, recovered, restarted⟩

end World

end WalletSession
