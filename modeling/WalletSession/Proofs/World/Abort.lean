import WalletSession.Proofs.World.Answered
import WalletSession.Proofs.World.Connected
import WalletSession.Proofs.World.Muted

/-! What a disconnect does to the call that holds the flight. Nothing tells the call: it is the next
edge that fails. A call that has taken an edge of its own is aborted by that, at whatever question
it waits. One that has not yet is only taken back to where a handshake starts anyway, and goes on. -/
namespace WalletSession.World

variable {σ : Type} [TokenStore σ] {w done : World σ} {t : Task} {a : Await} {id : Nat}

/-- Whatever happens from now on, the call has no record saved, and whatever it does leaves the
session disconnected. -/
def Silenced (w : World σ) (id : Nat) : Prop :=
  ∀ actions,
    (∃ after, (w.steps actions).log = w.log ++ after ∧
      ∀ token saved, .did id (.saved token saved) ∉ after) ∧
    ∀ t action, (w.steps actions).Has t → t.id = id → (w.steps actions).caller action = id →
      ((w.steps actions).step action).session.state.connected = false

theorem Muted.silenced (muted : w.Muted id) (reachable : w.Reachable) : Silenced w id := by
  intro actions
  have orderly := reachable.orderly
  have later : (w.steps actions).Reachable := reachable.steps actions
  obtain ⟨still, after, log, undone, _⟩ := muted.steps orderly actions
  refine ⟨⟨after, log, fun token saved => undone _⟩, fun t action has mine own => ?_⟩
  -- No session is connected in the phase that a reset leaves, and a muted call leaves it there.
  obtain ⟨reset, _⟩ := still.overtaken has mine
  have apart := later.shown.apart reset (by decide)
  have moves := step_moves later.orderly action
  rw [own] at moves
  obtain ⟨_, notes, leaves⟩ := moves.muted later.orderly still
  exact Bool.eq_false_iff.mpr fun connected => by simp [leaves.connected connected] at apart

theorem Succeeds.not_silenced {call : Call} (succeeds : Succeeds w id call done)
    {actions : List Action} (run : done = w.steps actions) : ¬Silenced w id := by
  subst run
  intro silenced
  obtain ⟨_, _, after, log, ⟨token, _, kept⟩, _⟩ := succeeds
  obtain ⟨⟨_, log', unsaved⟩, _⟩ := silenced actions
  obtain rfl := List.append_cancel_left (log.symm.trans log')
  exact unsaved token true kept

/-- A reset takes a call that has not taken an edge yet to where a handshake starts. -/
theorem Orderly.goesOnReset (orderly : w.Orderly) (has : w.Has t) (place : t.place = .asking a)
    (early : a.isEarly = true) (obliging : Obliging w.session.store) {reply : Replies}
    (well : reply.Well) (publishes : Bool) :
    let reset := w.step (.start .disconnect publishes)
    Succeeds reset t.id t.call (reset.heed reply t.id 7) := by
  intro reset
  have suits := orderly.suits has
  rw [Task.Suits, place] at suits
  obtain ⟨suits, _, wallet⟩ := suits
  obtain ⟨u, b, cleared, fresh, _, moved⟩ := orderly.disconnects publishes
  have other : t.id ≠ u.id := fresh ▸ Nat.ne_of_lt (orderly.number has)
  have stage (startup : t.call.isStartup = false) : Stage reset t a .unauthenticated := by
    refine ⟨orderly.step _, (moved.has_other other).mpr has, place, startup, ?_, ?_⟩
    · rw [moved.session]
      exact obliging.cleared
    · rw [moved.session]
      rfl
  have hasWallet : reset.session.hasWallet = true := by
    rw [moved.session]
    exact wallet early
  have absent : reset.session.state.token.isPresent = true →
      reset.session.state.phase.isPending = false := by
    rw [moved.session]
    exact fun _ => rfl
  cases a with
  | connectedWallet =>
    have only : t.call = .connect := by simpa [Await.isOf] using suits
    refine (stage (by simp [only, Call.isStartup])).check well only ?_ hasWallet absent 0
    rw [show reply (Await.connectedWallet).request = .ok true from well.isConnected]
    exact .connected
  | walletPrompt =>
    have only : t.call = .connect := by simpa [Await.isOf] using suits
    refine (stage (by simp [only, Call.isStartup])).check well only ?_ hasWallet absent 0
    rw [show reply (Await.walletPrompt).request = .ok () from well.connect]
    exact .prompted
  | account =>
    have other : t.call.isStartup = false := by
      cases call : t.call <;> simp_all [Await.isOf, Call.isShareable, Call.isStartup]
    exact (stage other).account well 2
  | _ => contradiction

/-- A disconnect aborts the call that holds the flight just if that has taken an edge of its own. -/
theorem aborts_iff_edge (reachable : w.Reachable) (has : w.Has t) (place : t.place = .asking a)
    (holds : w.flight.lock.holder = some t.id) (publishes : Bool) :
    let reset := w.step (.start .disconnect publishes)
    (a.phase?.isSome = true → Silenced reset t.id) ∧
      (a.phase?.isSome = false → Obliging w.session.store → ∀ reply : Replies, reply.Well →
        ∃ actions, reset.heed reply t.id 7 = reset.steps actions ∧
          Succeeds reset t.id t.call (reset.steps actions)) := by
  intro reset
  have orderly := reachable.orderly
  refine ⟨fun edge => ?_, fun none obliging reply well => ?_⟩
  · refine (orderly.mutes (orderly.number has) (fun u hasU mine => ?_) publishes).silenced
      (reachable.step _)
    obtain rfl := hasU.unique has mine
    exact ⟨a, place, edge⟩
  · have early : a.isEarly = true := by
      obtain ⟨u, same, hasU, flying⟩ := orderly.line (Lock.mem_line.mpr (.inl holds))
      obtain rfl := hasU.unique has same
      rw [place, Place.isFlying] at flying
      simpa [Await.isEarly, flying] using none
    obtain ⟨actions, same⟩ := heed_steps reset reply t.id 7
    exact ⟨actions, same, same ▸ orderly.goesOnReset has place early obliging well publishes⟩

/-- A handshake is aborted at the signing prompt, and not while it asks for an account. -/
theorem aborted_at_prompt_only :
    let start := ofSession (Session.create ⟨"", "", ""⟩ true (⟨none⟩ : MemoryStore))
    let asking := start.step (.start .handshake false)
    let prompting := asking.steps [.answer 0 .account (.ok "a"),
      .answer 0 .issue (.ok { token := some "t", account := some "a", nonce := some "n" })]
    Silenced (prompting.step (.start .disconnect false)) 0 ∧
      ∃ actions, Succeeds (asking.step (.start .disconnect false)) 0 .handshake
        ((asking.step (.start .disconnect false)).steps actions) := by
  intro start asking prompting
  have reached : start.Reachable := ⟨_, _, _, [], rfl⟩
  constructor
  · let payload := SignMessagePayload.challenge
      (Wire.encode ({ token := some "t", account := some "a", nonce := some "n" } : SessionToken)) "n"
    let t : Task := ⟨0, .handshake, false, .asking (.signature payload)⟩
    have has : prompting.Has t := rfl
    exact (aborts_iff_edge ((reached.step _).steps _) has rfl rfl false).1 rfl
  · let t : Task := ⟨0, .handshake, false, .asking .account⟩
    have has : asking.Has t := rfl
    obtain ⟨actions, _, succeeds⟩ := (aborts_iff_edge (reached.step _) has rfl rfl false).2 rfl
      (.memory _) .kind Replies.kind_well
    exact ⟨actions, succeeds⟩

/-- So a disconnect does not abort whatever it finds under way. -/
theorem not_always_aborted :
    ¬∀ (w : World MemoryStore) (t : Task) (a : Await), w.Reachable → w.Has t → t.place = .asking a →
      t.call.boards = true → w.flight.lock.holder = some t.id → ∀ publishes,
        Silenced (w.step (.start .disconnect publishes)) t.id := by
  intro always
  let start := ofSession (Session.create ⟨"", "", ""⟩ true (⟨none⟩ : MemoryStore))
  let w := start.step (.start .handshake false)
  have reachable : w.Reachable := Reachable.step ⟨_, _, _, [], rfl⟩ _
  have has : w.Has ⟨0, .handshake, false, .asking .account⟩ := rfl
  have silenced := always w _ _ reachable has rfl rfl rfl false
  have succeeds := reachable.orderly.goesOnReset has rfl rfl (.memory _) Replies.kind_well false
  obtain ⟨actions, same⟩ := heed_steps (w.step (.start .disconnect false)) .kind 0 7
  exact succeeds.not_silenced same silenced

end WalletSession.World
