import WalletSession.Proofs.World.Answered
import WalletSession.Proofs.World.Connected

/-! What a revocation hits. A disconnect resets the session at once, and asks the backend to revoke it
only when the wallet has answered. It does not look at the session again, so that one which was
confirmed in between is revoked while it stays connected; nothing older can be. -/
namespace WalletSession

variable {σ : Type} [TokenStore σ]

namespace Session

variable {s s' : Session σ} {call : Call} {occasion : Occasion}

/-- Only a disconnect waits for the wallet to let go, and it has reset the session just before. -/
theorem Turn.departs (turn : Turn call s occasion (.ok (.stop (.wait .walletLogout))) s') :
    call = .disconnect ∧ occasion = .start ∧ s'.state.connected = false := by
  cases turn with
  | asks asks => cases asks
  | logsOut only => exact ⟨only, rfl, rfl⟩

/-- The backend is asked to revoke right after the reset, or after the wallet has answered. -/
theorem Turn.revokes (turn : Turn call s occasion (.ok (.stop (.wait .revoke))) s') :
    call = .disconnect ∧
      ((occasion = .start ∧ s'.state.connected = false) ∨
        ∃ reply, occasion = .answer .walletLogout reply ∧ s' = s) := by
  cases turn with
  | asks asks =>
    cases asks with
    | revoke only => exact ⟨only, .inr ⟨_, rfl, rfl⟩⟩
  | logsOut only => exact ⟨only, .inl ⟨rfl, rfl⟩⟩

end Session

namespace World

variable {w w' : World σ} {t : Task} {id : Nat} {occasion : Occasion} {lock : Lock}
  {notes : List Note} {place : Option Place} {s : Session σ}

/-- The call began to disconnect, and what is connected now was confirmed and kept after that. -/
def Departed (log : List Note) (id : Nat) (state : SessionState) : Prop :=
  ∃ before after, log = before ++ .started id .disconnect :: after ∧
    (state.connected = true → LastKept after state.token)

/-- Every disconnect that waits for the wallet has departed. -/
def Departing (w : World σ) : Prop :=
  ∀ t, w.Has t → t.place = .asking .walletLogout → Departed w.log t.id w.session.state

omit [TokenStore σ] in
theorem Departed.sustained {s' : Session σ} {log : List Note} (departed : Departed log id s.state)
    (sustains : s'.state.connected = true → Sustains s s' notes) :
    Departed (log ++ notes) id s'.state := by
  obtain ⟨before, after, rfl, kept⟩ := departed
  refine ⟨before, after ++ notes, by simp, ?_⟩
  intro connected
  exact (sustains connected).lastKept kept

/-- Where a disconnect begins, the session is not connected. -/
theorem Comes.departs {result : Except AuthError Move} (comes : Comes w t .start lock notes)
    (orderly : w.Orderly) (only : t.call = .disconnect) (apart : s.state.connected = false)
    (moved : Moved w t lock (rest result) (settled s.rested t.call result)
      (notes ++ s.deeds.map (.did t.id) ++ closing t lock s.rested result) w') :
    Departed w'.log t.id w'.session.state ∧ w'.session.state.connected = false := by
  have other : t.call.isStartup = false := by
    rw [only]
    rfl
  have session : w'.session = s.rested := by rw [moved.session, settled_of_other _ _ other]
  have connected : w'.session.state.connected = false := by
    rw [session, Session.rested_state, apart]
  obtain rfl := comes.starts orderly other
  refine ⟨⟨w.log, s.deeds.map (.did t.id) ++ closing t lock s.rested result, ?_, ?_⟩, connected⟩
  · rw [moved.log, only]
    rfl
  · intro now
    simp [connected] at now

section Lawful

variable [LawfulStore σ]

theorem Moves.departing (moves : Moves w w' id) (orderly : w.Orderly)
    (trusted : w.session.Trusted) (departing : w.Departing) : w'.Departing := by
  obtain ⟨notes, log, sustains⟩ := moves.sustains orderly trusted
  intro u has place
  have stays (had : w.Has u) : Departed w'.log u.id w'.session.state := by
    rw [log]
    exact (departing u had place).sustained sustains
  cases moves.sorts orderly with
  | idle same => exact stays (same ▸ has)
  | turns comes turn moved =>
    rcases moved.has_cases has with ⟨p, goes, rfl⟩ | ⟨_, had⟩
    · obtain ⟨a, rfl, rfl⟩ := rest_eq_some goes
      cases place
      obtain ⟨only, rfl, apart⟩ := turn.departs
      exact (comes.departs orderly only apart moved).1
    · exact stays had
  | quiet moved _ quiet =>
    rcases moved.has_cases has with ⟨p, goes, rfl⟩ | ⟨_, had⟩
    · cases place
      exact absurd goes (quiet.silent _)
    · exact stays had

theorem Reachable.departing (reachable : w.Reachable) : w.Departing :=
  reachable.stepwise (fun _ _ _ _ has => nomatch has)
    fun _ action reachable => (step_moves reachable.orderly action).departing reachable.orderly
      reachable.trusted.session

/-- Whoever has the backend revoke has departed, and has waited for the wallet if the session is
connected again. -/
theorem Moves.revokes {number : Nat} (moves : Moves w w' id) (orderly : w.Orderly)
    (trusted : w.session.Trusted) (departing : w.Departing) (log : w'.log = w.log ++ notes)
    (asked : .asked number .revoke ∈ notes) :
    Departed w'.log number w'.session.state ∧ (w'.session.state.connected = true →
      ∃ t, w.Has t ∧ t.id = number ∧ t.place = .asking .walletLogout) := by
  obtain ⟨_, log', sustains⟩ := moves.sustains orderly trusted
  cases moves.sorts orderly with
  | idle same =>
    obtain rfl : notes = [] := by simpa [same] using log
    contradiction
  | @turns t occasion lock noted result s comes turn moved =>
    obtain rfl := List.append_cancel_left (log.symm.trans moved.log)
    simp only [List.mem_append, List.mem_map, reduceCtorEq, and_false, exists_false, or_false]
      at asked
    rcases closing_cases (asked.resolve_left (comes.unasked _ _)) with final | ⟨a, rfl, same⟩
    · contradiction
    · obtain ⟨rfl, request⟩ := Note.asked.inj same
      obtain rfl : a = .revoke := by cases a <;> first | rfl | cases request
      rcases turn.revokes with ⟨only, ⟨rfl, apart⟩ | ⟨reply, rfl, rfl⟩⟩
      · obtain ⟨departed, connected⟩ := comes.departs orderly only apart moved
        exact ⟨departed, fun now => by simp [connected] at now⟩
      · cases comes with
        | answered has place _ =>
          rw [log']
          exact ⟨(departing t has place).sustained sustains, fun _ => ⟨t, has, rfl, place⟩⟩
  | quiet moved _ quiet =>
    obtain rfl := List.append_cancel_left (log.symm.trans moved.log)
    exact absurd asked (quiet.unasked _ _)

/-- A revocation is sent by a disconnect that has reset the session before, and a session that is
connected then was confirmed and kept since; but where one was, it is revoked whatever the wallet has
answered, and stays connected. -/
theorem revocation_finds_only_newer (reachable : w.Reachable) :
    (∀ (action : Action) (notes : List Note) (id : Nat),
      (w.step action).log = w.log ++ notes → .asked id .revoke ∈ notes →
        Departed (w.step action).log id (w.step action).session.state ∧
          ((w.step action).session.state.connected = true →
            ∃ t, w.Has t ∧ t.id = id ∧ t.place = .asking .walletLogout)) ∧
      ∀ (t : Task) (reply : Except AuthError Unit), w.Has t → t.place = .asking .walletLogout →
        (w.step (.answer t.id .disconnect reply)).log =
            w.log ++ [.answered t.id .disconnect reply, .asked t.id .revoke] ∧
          (w.step (.answer t.id .disconnect reply)).session = w.session := by
  have orderly := reachable.orderly
  constructor
  · intro action notes id log asked
    exact (step_moves orderly action).revokes orderly reachable.trusted.session
      reachable.departing log asked
  · intro t reply has place
    have moved := orderly.answered has place reply (.ok (.wait .revoke)) rfl
    constructor
    · refine moved.log.trans ?_
      rw [orderly.rested]
      rfl
    · exact moved.session.trans (Session.rested_of_idle orderly.rested)

end Lawful

section Race

/-- A disconnect waits for the wallet, and a handshake has begun and ended since. -/
def reconnected : World MemoryStore :=
  (ofSession (Session.create ⟨"", "", ""⟩ true (⟨none⟩ : MemoryStore))).steps
    [.start .disconnect false, .start .handshake false, .answer 1 .account (.ok "a"),
      .answer 1 .issue (.ok { token := some "t", account := some "a", nonce := some "n" }),
      .answer 1 .signMessage (.ok ⟨true, some { message := "m", nonce := "n", signature := [] }⟩),
      .answer 1 .publicKey (.ok "k"), .answer 1 .verify (.ok { verified := true })]

theorem reconnected_reachable : reconnected.Reachable := ⟨_, _, _, _, rfl⟩

theorem reconnected_connected : reconnected.session.state.connected = true := rfl

theorem reconnected_departs : reconnected.Has ⟨0, .disconnect, false, .asking .walletLogout⟩ := rfl

/-- The wallet answers, and the session of the handshake is revoked and stays connected. -/
theorem revoked_while_connected :
    let revoked := reconnected.step (.answer 0 .disconnect (.ok ()))
    revoked.log = reconnected.log ++ [.answered 0 .disconnect (.ok ()), .asked 0 .revoke] ∧
      revoked.session.state.connected = true ∧
        ∃ before after, revoked.log = before ++ .started 0 .disconnect :: after ∧
          LastKept after revoked.session.state.token := by
  intro revoked
  obtain ⟨only, always⟩ := revocation_finds_only_newer reconnected_reachable
  obtain ⟨log, session⟩ := always _ (.ok ()) reconnected_departs rfl
  have connected : revoked.session.state.connected = true := by
    rw [session]
    exact reconnected_connected
  obtain ⟨⟨before, after, split, kept⟩, _⟩ := only (.answer 0 .disconnect (.ok ())) _ 0 log (by simp)
  exact ⟨log, connected, before, after, split, kept connected⟩

/-- So a revocation is not sent of disconnected sessions alone. -/
theorem not_always_disconnected :
    ¬∀ (w : World MemoryStore) (action : Action) (notes : List Note) (id : Nat), w.Reachable →
      (w.step action).log = w.log ++ notes → .asked id .revoke ∈ notes →
      (w.step action).session.state.connected = false := by
  intro always
  have log : (reconnected.step (.answer 0 .disconnect (.ok ()))).log =
      reconnected.log ++ [.answered 0 .disconnect (.ok ()), .asked 0 .revoke] := rfl
  have apart := always reconnected (.answer 0 .disconnect (.ok ())) _ 0 reconnected_reachable log
    (by simp)
  exact absurd apart (by decide +kernel)

end Race

end World

end WalletSession
